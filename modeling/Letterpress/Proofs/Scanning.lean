import Letterpress.Proofs.Scanner

/-!
# The Scanner Reads

The scanner and the readers are taken side by side, reader by reader. Where a reader goes on, the
scan ends at the offset of the cursor that the reader goes on from, with the same result; where a
reader gives up, the scan does so with the same error. A reader never goes back behind the cursor
that it has been given, so a scan does not either, although it sets its offset back in two places:
in front of the blanks of a bare argument, and behind the name of a filter that has no colon. In
both places it has gone across nothing but blanks, and the reader goes on from an earlier cursor.

The readers call themselves, while the scanner goes round in loops that carry what they have found.
So each turn of a loop is compared with what is left to be read, behind what has been found. For
nodes that is a little more. The reader takes plain text in one go, and the scanner a character at a
time, so what a draft holds goes on with the plain text that comes next; with nothing in the draft
this is what the reader does, whether there is plain text or not.

## Main definitions

* `prepended`: What was read, behind what had been read before.
* `pathLeft`, `quotedLeft`, `argumentsLeft`, `filtersLeft`, `nodesLeft`: What is left to be read.

## Theorems

* `steps_pathTurn`, `steps_quotedTurn`, `steps_argumentsTurn`, `steps_filtersTurn`,
  `steps_nodesTurn`: Every turn leads on to what is left to be read.
* `skipBlanks_apply`, `follows_identifier`, `follows_path`, `follows_quotedText`,
  `follows_arguments`, `follows_filters`, `follows_tag`, `follows_nodes`: Every scan does what the
  reader does.
-/

namespace Letterpress

open Ending (Meets Follows Steps)

variable {α σ : Type} {source : String} {limit : Nat} {c d : Cursor}

/-- What was read, with what had been read before in front of it. -/
def prepended (xs : List α) (reading : Except ReadError (List α × Cursor)) :
    Except ReadError (List α × Cursor) :=
  reading.map fun (ys, d) => (xs ++ ys, d)

@[simp]
theorem prepended_ok (xs ys : List α) (d : Cursor) :
    prepended xs (.ok (ys, d)) = .ok (xs ++ ys, d) := rfl

@[simp]
theorem prepended_error (xs : List α) (e : ReadError) : prepended xs (.error e) = .error e := rfl

@[simp]
theorem prepended_nil (reading : Except ReadError (List α × Cursor)) :
    prepended [] reading = reading := by
  cases reading with
  | error e => rfl
  | ok r => rfl

@[simp]
theorem prepended_prepended (xs ys : List α) (reading : Except ReadError (List α × Cursor)) :
    prepended xs (prepended ys reading) = prepended (xs ++ ys) reading := by
  cases reading with
  | error e => rfl
  | ok r => simp only [prepended, Except.map, List.append_assoc]

theorem steps_skipTurn (p : Char → Bool) (c : Cursor) (hc : c.Within source limit) :
    (Scan.skipTurn p () source limit c.offset).Steps c
      (fun _ d => .ok ((), (d.takeWhile p).2)) (.ok ((), (c.takeWhile p).2)) := by
  rcases c with ⟨rest, o⟩
  unfold Scan.skipTurn
  cases rest with
  | nil =>
    rw [Scan.bind_of_found (Scan.peek_nil hc)]
    exact Meets.found (d := ⟨[], o⟩) (.refl _) rfl
  | cons x rest =>
    rw [Scan.bind_of_found (Scan.peek_cons hc)]
    have hpasses := Cursor.passes_cons x rest o
    cases hx : p x with
    | false =>
      simp only [hx, Bool.false_eq_true, if_false]
      refine Meets.found (d := ⟨x :: rest, o⟩) (.refl _) ?_
      simp [Cursor.takeWhile, List.takeWhile, List.dropWhile, hx]
    | true =>
      simp only [hx, if_true]
      refine Meets.found (d := ⟨rest, o + x.utf8Size⟩) hpasses.reaches ⟨hpasses, ?_⟩
      simp [Cursor.takeWhile, List.takeWhile, List.dropWhile, hx, Nat.add_assoc]

theorem skipWhile_apply (p : Char → Bool) (hc : c.Within source limit) :
    Scan.skipWhile p source limit c.offset = .found () (c.takeWhile p).2.offset :=
  (Follows.repeatedly (s := ()) (fun _ => steps_skipTurn p) hc).eq_found

theorem skipBlanks_apply (hc : c.Within source limit) :
    Scan.skipBlanks source limit c.offset = .found () c.skipBlanks.offset :=
  skipWhile_apply Text.isBlank hc

theorem Cursor.Within.skipBlanks (hc : c.Within source limit) :
    c.skipBlanks.Within source limit :=
  hc.of_reaches (Cursor.reaches_skipBlanks c)

theorem follows_identifier (hc : c.Within source limit) :
    (Scan.identifier source limit c.offset).Follows c (identifier c) := by
  rcases c with ⟨rest, o⟩
  unfold Scan.identifier
  rw [Scan.bind_of_found (Scan.offset_apply o)]
  cases rest with
  | nil =>
    rw [Scan.bind_of_found (Scan.peek_nil hc)]
    exact Meets.refused (d := ⟨[], o⟩) (.refl _) rfl
  | cons x rest =>
    rw [Scan.bind_of_found (Scan.peek_cons hc)]
    by_cases hx : isNameStart x
    · have hfirst := Cursor.takes_cons x rest o
      have hnext := hc.of_reaches (Cursor.passes_cons x rest o).reaches
      -- The name is the slice between the two offsets, which is what was taken.
      have htakes := hfirst.trans (Cursor.takes_takeWhile isNamePart ⟨rest, o + x.utf8Size⟩)
      have hread : identifier ⟨x :: rest, o⟩ =
          .ok (String.ofList ([x] ++ rest.takeWhile isNamePart),
            ((⟨rest, o + x.utf8Size⟩ : Cursor).takeWhile isNamePart).2) := by
        simp only [identifier, if_pos hx]
        rfl
      simp only [if_pos hx]
      rw [Scan.bind_of_found (Scan.advance_apply _ _),
        Scan.bind_of_found (skipWhile_apply isNamePart hnext),
        Scan.bind_of_found (Scan.offset_apply _), Scan.slice_apply hc htakes]
      exact Meets.found (passes_identifier hread).reaches hread
    · simp only [if_neg hx]
      refine Meets.refused (d := ⟨x :: rest, o⟩) (.refl _) ?_
      simp only [identifier, if_neg hx]

/-- What is left to be read of a path behind some of its names. -/
def pathLeft (names : List String) (c : Cursor) : Except ReadError (List String × Cursor) :=
  match c.accept? '.' with
  | none => .ok (names, c)
  | some d => prepended names (path d)

theorem path_eq_left {c d : Cursor} {name : String} (h : identifier c = .ok (name, d)) :
    path c = pathLeft [name] d := by
  rw [path_eq]
  simp only [h, pathLeft]
  cases d.accept? '.' with
  | none => rfl
  | some c₂ =>
    cases hothers : path c₂ with
    | error e => simp only [hothers, prepended_error]
    | ok r =>
      simp only [hothers]
      rfl

theorem steps_pathTurn (names : List String) (c : Cursor) (hc : c.Within source limit) :
    (Scan.pathTurn names source limit c.offset).Steps c pathLeft (pathLeft names c) := by
  unfold Scan.pathTurn
  cases hpoint : c.accept? '.' with
  | none =>
    rw [Scan.bind_of_found (Scan.eat_of_none hc hpoint)]
    refine Meets.found (.refl c) ?_
    simp only [pathLeft, hpoint]
  | some c₁ =>
    have hpasses := Cursor.passes_accept? hpoint
    have hleft : pathLeft names c = prepended names (path c₁) := by
      simp only [pathLeft, hpoint]
    rw [Scan.bind_of_found (Scan.eat_of_accept? hc hpoint)]
    refine Meets.bind (follows_identifier (hc.of_reaches hpasses.reaches)) hpasses.reaches
      (fun name c₂ hreaches hname => ?_) (fun e he => ?_)
    · refine Meets.found (hpasses.reaches.trans hreaches) ⟨hpasses.trans_reaches hreaches, ?_⟩
      -- The path behind the point is its first name and what is left, so both are left here.
      rw [hleft, path_eq_left hname, pathLeft, pathLeft]
      cases c₂.accept? '.' with
      | none => rfl
      | some c₃ => exact prepended_prepended names [name] (path c₃)
    · rw [hleft, path_eq, he]
      rfl

theorem follows_path (hc : c.Within source limit) :
    (Scan.path source limit c.offset).Follows c (path c) := by
  refine Meets.bind (follows_identifier hc) (.refl c) (fun name d hreaches hname => ?_)
    (fun e he => ?_)
  · rw [path_eq_left hname]
    exact (Follows.repeatedly steps_pathTurn (hc.of_reaches hreaches)).of_reaches hreaches
  · rw [path_eq, he]

/-- A character of a text in quotes that stands for itself. -/
theorem quotedText_plain {quote x : Char} (hquote : x ≠ quote) (hslash : x ≠ '\\') (opened : Nat)
    (rest : List Char) (o : Nat) : quotedText quote opened (x :: rest) o =
      prepended [x] (quotedText quote opened rest (o + x.utf8Size)) := by
  rw [quotedText.eq_def]
  simp only [if_neg hquote, if_neg hslash]
  cases hothers : quotedText quote opened rest (o + x.utf8Size) with
  | error e => simp only [prepended_error]
  | ok r => rfl

theorem quotedText_escape {quote x : Char} (hquote : '\\' ≠ quote)
    (hx : isEscapable quote x = true) (opened : Nat) (rest : List Char) (o : Nat) :
    quotedText quote opened ('\\' :: x :: rest) o =
      prepended [x] (quotedText quote opened rest (o + 1 + x.utf8Size)) := by
  rw [quotedText.eq_def]
  simp only [if_neg hquote, if_pos, hx]
  cases hothers : quotedText quote opened rest (o + 1 + x.utf8Size) with
  | error e => simp only [prepended_error]
  | ok r => rfl

/-- What is left to be read of a text in quotes behind some of its characters. -/
def quotedLeft (quote : Char) (opened : Nat) (s : List Char) (c : Cursor) :
    Except ReadError (List Char × Cursor) :=
  prepended s (quotedText quote opened c.rest c.offset)

theorem steps_escapeTurn {quote : Char} (hquote : '\\' ≠ quote) (opened : Nat) (s : List Char)
    {rest : List Char} {o : Nat} (hc : (⟨'\\' :: rest, o⟩ : Cursor).Within source limit) :
    (Scan.escapeTurn quote s source limit (o + 1)).Steps ⟨'\\' :: rest, o⟩
      (quotedLeft quote opened) (quotedLeft quote opened s ⟨'\\' :: rest, o⟩) := by
  have hpasses := Cursor.passes_cons '\\' rest o
  have hnext : (⟨rest, o + 1⟩ : Cursor).Within source limit := hc.of_reaches hpasses.reaches
  unfold Scan.escapeTurn quotedLeft
  rw [Scan.bind_of_found (Scan.offset_apply _)]
  -- Behind the backslash there may be nothing at all.
  cases rest with
  | nil =>
    rw [Scan.bind_of_found (Scan.bump_nil hnext)]
    refine Meets.refused (d := ⟨[], o + 1⟩) hpasses.reaches ?_
    rw [quotedText.eq_def]
    simp only [if_neg hquote, if_pos, prepended_error]
  | cons e rest =>
    have hboth := hpasses.trans_reaches (Cursor.passes_cons e rest (o + 1)).reaches
    rw [Scan.bind_of_found (Scan.bump_cons hnext)]
    by_cases he : isEscapable quote e
    · simp only [if_pos he]
      refine Meets.found (d := ⟨rest, o + 1 + e.utf8Size⟩) hboth.reaches ⟨hboth, ?_⟩
      rw [quotedText_escape hquote he, prepended_prepended]
    · -- The fault is reported at the backslash, one byte in front of the scan.
      simp only [if_neg he]
      refine Meets.refused (d := ⟨rest, o + 1 + e.utf8Size⟩) hboth.reaches ?_
      rw [quotedText.eq_def]
      simp only [if_neg hquote, if_pos, if_neg he, prepended_error, Nat.add_sub_cancel]

theorem steps_quotedTurn (quote : Char) (opened : Nat) (s : List Char) (c : Cursor)
    (hc : c.Within source limit) :
    (Scan.quotedTurn quote opened s source limit c.offset).Steps c (quotedLeft quote opened)
      (quotedLeft quote opened s c) := by
  rcases c with ⟨rest, o⟩
  unfold Scan.quotedTurn
  cases rest with
  | nil =>
    rw [Scan.bind_of_found (Scan.bump_nil hc)]
    exact Meets.refused (d := ⟨[], o⟩) (.refl _) rfl
  | cons x rest =>
    have hpasses := Cursor.passes_cons x rest o
    rw [Scan.bind_of_found (Scan.bump_cons hc)]
    by_cases hquote : x = quote
    · simp only [if_pos hquote]
      refine Meets.found (d := ⟨rest, o + x.utf8Size⟩) hpasses.reaches ?_
      rw [quotedLeft, quotedText.eq_def]
      simp only [if_pos hquote, prepended_ok, List.append_nil]
    · by_cases hslash : x = '\\'
      · subst hslash
        simp only [if_neg hquote, if_pos]
        exact steps_escapeTurn hquote opened s hc
      · simp only [if_neg hquote, if_neg hslash]
        refine Meets.found (d := ⟨rest, o + x.utf8Size⟩) hpasses.reaches ⟨hpasses, ?_⟩
        rw [quotedLeft, quotedText_plain hquote hslash, prepended_prepended, quotedLeft]

/-- What the reader of quoted text has read behind the quote at a cursor, as a text. -/
def quotedAt (quote : Char) (c : Cursor) : Except ReadError (String × Cursor) :=
  (quotedText quote c.offset c.rest.tail (c.offset + quote.utf8Size)).map fun (s, d) =>
    (String.ofList s, d)

theorem follows_quotedText {quote : Char} {rest : List Char} (hc : c.Within source limit)
    (hquote : c.rest = quote :: rest) :
    (Scan.quotedText quote source limit c.offset).Follows c (quotedAt quote c) := by
  have hpasses : c.Passes ⟨rest, c.offset + quote.utf8Size⟩ :=
    ⟨[quote], List.cons_ne_nil _ _, hquote, rfl⟩
  have hnext := hc.of_reaches hpasses.reaches
  unfold Scan.quotedText
  rw [Scan.bind_of_found (Scan.offset_apply _), Scan.bind_of_found (Scan.advance_apply _ _)]
  refine Meets.bind (Follows.repeatedly (steps_quotedTurn quote c.offset) hnext) hpasses.reaches
    (fun s d hreaches hread => ?_) (fun e he => ?_)
  · refine Meets.found (hpasses.reaches.trans hreaches) ?_
    rw [quotedLeft, prepended_nil] at hread
    rw [quotedAt, hquote, List.tail_cons, hread]
    rfl
  · rw [quotedLeft, prepended_nil] at he
    rw [quotedAt, hquote, List.tail_cons, he]
    rfl

theorem argument_of_not_quote (h : c.skipBlanks.rest.head?.filter isQuote = none) :
    argument c = .ok (bareArgument c) := by
  simp only [argument]
  split
  · rfl
  · next q rest hrest =>
    rw [hrest, List.head?_cons, Option.filter_eq_none_iff] at h
    rw [if_neg (h q rfl)]

theorem argument_of_quote {quote : Char} {rest : List Char}
    (hrest : c.skipBlanks.rest = quote :: rest) (hquote : isQuote quote = true) :
    argument c =
      match quotedAt quote c.skipBlanks with
      | .error e => .error e
      | .ok (s, closed) => (afterQuoted closed).map fun d => (s, d) := by
  simp only [argument, hrest, if_pos hquote, quotedAt, List.tail_cons]
  cases quotedText quote c.skipBlanks.offset rest (c.skipBlanks.offset + quote.utf8Size) with
  | error e => rfl
  | ok r =>
    simp only [Except.map]
    cases afterQuoted r.2 with
    | error e => rfl
    | ok d => rfl

theorem arguments_of_error {e : ReadError} (h : argument c = .error e) :
    arguments c = .error e := by
  rw [arguments_eq, h]

theorem arguments_of_last {arg : String} (h : argument c = .ok (arg, d))
    (hcomma : d.accept? ',' = none) : arguments c = .ok ([arg], d) := by
  rw [arguments_eq]
  simp only [h, hcomma]

theorem arguments_of_comma {b : Cursor} {arg : String} (h : argument c = .ok (arg, d))
    (hcomma : d.accept? ',' = some b) : arguments c = prepended [arg] (arguments b) := by
  rw [arguments_eq]
  simp only [h, hcomma]
  cases arguments b with
  | error e => rfl
  | ok r => rfl

/-- What is left to be read of arguments behind some of them. -/
def argumentsLeft (args : List String) (c : Cursor) : Except ReadError (List String × Cursor) :=
  prepended args (arguments c)

theorem steps_lastArgument {args : List String} {arg : String} (hread : argument c = .ok (arg, d))
    (hcomma : d.accept? ',' = none) :
    (Ending.found (.last (args ++ [arg])) d.offset).Steps c argumentsLeft
      (argumentsLeft args c) := by
  refine Meets.found (reaches_argument hread) ?_
  rw [argumentsLeft, arguments_of_last hread hcomma]
  rfl

theorem steps_nextArgument {b : Cursor} {args : List String} {arg : String}
    (hread : argument c = .ok (arg, d)) (hcomma : d.accept? ',' = some b) :
    (Ending.found (.again (args ++ [arg])) b.offset).Steps c argumentsLeft
      (argumentsLeft args c) := by
  have hpasses := (reaches_argument hread).trans_passes (Cursor.passes_accept? hcomma)
  refine Meets.found hpasses.reaches ⟨hpasses, ?_⟩
  rw [argumentsLeft, arguments_of_comma hread hcomma, prepended_prepended, argumentsLeft]

/-- The scan goes back to the blanks that it has looked across, and takes the argument from there
    on. -/
theorem steps_bare (args : List String) (hc : c.Within source limit)
    (hnone : c.skipBlanks.rest.head?.filter isQuote = none) :
    (Scan.argumentsTurn args source limit c.offset).Steps c argumentsLeft
      (argumentsLeft args c) := by
  have htakes := Cursor.takes_takeWhile (fun d => !isArgumentEnd d) c
  have hread : argument c =
      .ok (Text.trim (String.ofList (c.rest.takeWhile fun d => !isArgumentEnd d)),
        (c.takeWhile fun d => !isArgumentEnd d).2) :=
    argument_of_not_quote hnone
  have hnext := hc.of_reaches (reaches_argument hread)
  unfold Scan.argumentsTurn
  rw [Scan.bind_of_found (Scan.offset_apply _), Scan.bind_of_found (skipBlanks_apply hc),
    Scan.bind_of_found (Scan.peek_apply hc.skipBlanks)]
  simp only [hnone]
  -- From here on the scan is at the first cursor again, so what it slices is what the reader takes.
  rw [Scan.bind_of_found (Scan.goTo_apply _ _), Scan.bind_of_found (skipWhile_apply _ hc),
    Scan.bind_of_found (Scan.offset_apply _), Scan.bind_of_found (Scan.slice_apply hc htakes _)]
  cases hcomma : (c.takeWhile fun d => !isArgumentEnd d).2.accept? ',' with
  | none =>
    rw [Scan.bind_of_found (Scan.eat_of_none hnext hcomma)]
    exact steps_lastArgument hread hcomma
  | some b =>
    rw [Scan.bind_of_found (Scan.eat_of_accept? hnext hcomma)]
    exact steps_nextArgument hread hcomma

/-- Behind a quoted argument and blanks there is the end of the source, a comma, another sign that
    ends an argument, or something that must not be there. -/
theorem steps_quotedEnd {args : List String} {arg : String} {closed : Cursor}
    (hread : argument c = (afterQuoted closed).map fun d => (arg, d)) (hreaches : c.Reaches closed)
    (hclosed : closed.Within source limit) :
    (Scan.quotedEnd (args ++ [arg]) source limit closed.offset).Steps c argumentsLeft
      (argumentsLeft args c) := by
  unfold Scan.quotedEnd
  rw [Scan.bind_of_found (skipBlanks_apply hclosed),
    Scan.bind_of_found (Scan.peek_apply hclosed.skipBlanks)]
  simp only [afterQuoted, Cursor.next?] at hread
  -- The four cases are those of the reader behind a quoted text, in the same order.
  cases hnext : closed.skipBlanks.rest.head? with
  | none =>
    simp only [hnext, Except.map] at hread
    have hcomma : closed.skipBlanks.accept? ',' = none :=
      Cursor.accept?_of_head?_ne (hnext ▸ (Option.some_ne_none ',').symm)
    exact steps_lastArgument hread hcomma
  | some x =>
    simp only [hnext] at hread
    by_cases hcomma : x = ','
    · subst hcomma
      simp only [if_pos]
      exact steps_nextArgument hread (Cursor.accept?_of_head? hnext)
    · by_cases hsign : isArgumentEnd x
      · simp only [if_pos hsign, Except.map] at hread
        simp only [if_neg hcomma, if_pos hsign]
        have hlast : closed.skipBlanks.accept? ',' = none :=
          Cursor.accept?_of_head?_ne (hnext ▸ fun h => hcomma (Option.some.inj h))
        exact steps_lastArgument hread hlast
      · simp only [if_neg hsign, Except.map] at hread
        simp only [if_neg hcomma, if_neg hsign]
        refine Meets.refused (hreaches.trans (Cursor.reaches_skipBlanks closed)) ?_
        rw [argumentsLeft, arguments_of_error hread]
        rfl

theorem steps_quoted {quote : Char} {rest : List Char} (args : List String)
    (hc : c.Within source limit) (hrest : c.skipBlanks.rest = quote :: rest)
    (hquote : isQuote quote = true) :
    (Scan.argumentsTurn args source limit c.offset).Steps c argumentsLeft
      (argumentsLeft args c) := by
  have hopened := Cursor.reaches_skipBlanks c
  have hread := argument_of_quote hrest hquote
  have hsome : c.skipBlanks.rest.head?.filter isQuote = some quote := by
    rw [hrest, List.head?_cons, Option.filter_some, if_pos hquote]
  unfold Scan.argumentsTurn
  rw [Scan.bind_of_found (Scan.offset_apply _), Scan.bind_of_found (skipBlanks_apply hc),
    Scan.bind_of_found (Scan.peek_apply hc.skipBlanks)]
  simp only [hsome]
  refine Meets.bind (follows_quotedText hc.skipBlanks hrest) hopened
    (fun arg closed hreaches hclosed => ?_) (fun e he => ?_)
  · simp only [hclosed] at hread
    have hall := hopened.trans hreaches
    exact steps_quotedEnd hread hall (hc.of_reaches hall)
  · simp only [he] at hread
    rw [argumentsLeft, arguments_of_error hread]
    rfl

theorem steps_argumentsTurn (args : List String) (c : Cursor) (hc : c.Within source limit) :
    (Scan.argumentsTurn args source limit c.offset).Steps c argumentsLeft
      (argumentsLeft args c) := by
  cases hquote : c.skipBlanks.rest.head?.filter isQuote with
  | none => exact steps_bare args hc hquote
  | some quote =>
    rw [Option.filter_eq_some_iff] at hquote
    rcases hquote with ⟨hnext, hquote⟩
    rcases List.head?_eq_some_iff.mp hnext with ⟨rest, hrest⟩
    exact steps_quoted args hc hrest hquote

theorem follows_arguments (hc : c.Within source limit) :
    (Scan.arguments source limit c.offset).Follows c (arguments c) := by
  have hturns := Follows.repeatedly (s := []) steps_argumentsTurn hc
  rwa [argumentsLeft, prepended_nil] at hturns

theorem follows_filterArguments (hc : c.Within source limit) :
    (Scan.filterArguments source limit c.offset).Follows c (filterArguments c) := by
  have hblanks := Cursor.reaches_skipBlanks c
  unfold Scan.filterArguments
  rw [Scan.bind_of_found (Scan.offset_apply _), Scan.bind_of_found (skipBlanks_apply hc)]
  cases hcolon : c.skipBlanks.accept? ':' with
  | none =>
    -- Without a colon the scan goes back, and has taken nothing.
    rw [Scan.bind_of_found (Scan.eat_of_none hc.skipBlanks hcolon)]
    refine Meets.found (.refl c) ?_
    simp only [filterArguments, hcolon]
  | some d =>
    have hreaches := hblanks.trans (Cursor.passes_accept? hcolon).reaches
    have hread : filterArguments c = arguments d := by simp only [filterArguments, hcolon]
    rw [Scan.bind_of_found (Scan.eat_of_accept? hc.skipBlanks hcolon), hread]
    exact (follows_arguments (hc.of_reaches hreaches)).of_reaches hreaches

theorem filters_of_error {e : ReadError} (hpipe : c.skipBlanks.accept? '|' = some d)
    (h : filterUse c.skipBlanks.offset d = .error e) : filters c = .error e := by
  rw [filters_eq]
  simp only [hpipe, h]

theorem filters_of_use {b : Cursor} {f : FilterUse} (hpipe : c.skipBlanks.accept? '|' = some d)
    (h : filterUse c.skipBlanks.offset d = .ok (f, b)) : filters c = prepended [f] (filters b) := by
  rw [filters_eq]
  simp only [hpipe, h]
  cases filters b with
  | error e => rfl
  | ok r => rfl

/-- What is left to be read of filters behind some of them. -/
def filtersLeft (fs : List FilterUse) (c : Cursor) : Except ReadError (List FilterUse × Cursor) :=
  prepended fs (filters c)

theorem steps_filtersTurn (fs : List FilterUse) (c : Cursor) (hc : c.Within source limit) :
    (Scan.filtersTurn fs source limit c.offset).Steps c filtersLeft (filtersLeft fs c) := by
  have hblanks := Cursor.reaches_skipBlanks c
  unfold Scan.filtersTurn
  rw [Scan.bind_of_found (skipBlanks_apply hc), Scan.bind_of_found (Scan.peek_apply hc.skipBlanks)]
  by_cases hnext : c.skipBlanks.rest.head? = some '|'
  · have hpipe : c.skipBlanks.accept? '|' =
        some ⟨c.skipBlanks.rest.tail, c.skipBlanks.offset + 1⟩ :=
      Cursor.accept?_of_head? hnext
    have hpasses := hblanks.trans_passes (Cursor.passes_accept? hpipe)
    have hbehind := hc.of_reaches hpasses.reaches
    -- The pipe alone makes the turn move on, whatever is scanned behind it.
    simp only [if_pos hnext]
    rw [Scan.bind_of_found (Scan.offset_apply _), Scan.bind_of_found (Scan.advance_apply _ _),
      Scan.bind_of_found (skipBlanks_apply hbehind)]
    have hname := hpasses.trans_reaches (Cursor.reaches_skipBlanks _)
    refine Meets.bind (follows_identifier hbehind.skipBlanks) hname.reaches
      (fun name c₁ h₁ hidentifier => ?_) (fun e he => ?_)
    · have hnamed := hname.trans_reaches h₁
      refine Meets.bind (follows_filterArguments (hc.of_reaches hnamed.reaches)) hnamed.reaches
        (fun args c₂ h₂ hargs => ?_) (fun e he => ?_)
      · have hlast := hnamed.trans_reaches h₂
        refine Meets.found hlast.reaches ⟨hlast, ?_⟩
        rw [filtersLeft, filters_of_use hpipe, prepended_prepended, filtersLeft]
        simp only [filterUse, hidentifier, hargs]
      · rw [filtersLeft, filters_of_error hpipe, prepended_error]
        simp only [filterUse, hidentifier, he]
    · rw [filtersLeft, filters_of_error hpipe, prepended_error]
      simp only [filterUse, he]
  · have hpipe := Cursor.accept?_of_head?_ne hnext
    simp only [if_neg hnext]
    refine Meets.found (d := c.skipBlanks) hblanks ?_
    rw [filtersLeft, filters_eq]
    simp only [hpipe, prepended_ok, List.append_nil]

theorem follows_filters (hc : c.Within source limit) :
    (Scan.filters source limit c.offset).Follows c (filters c) := by
  have hturns := Follows.repeatedly (s := []) steps_filtersTurn hc
  rwa [filtersLeft, prepended_nil] at hturns

theorem meets_closeTag (fault : ReadFault) (hc : c.Within source limit) :
    (Scan.closeTag fault source limit c.offset).Meets c (fun _ d => closeTag fault c = .ok d)
      (fun e => closeTag fault c = .error e) := by
  have hblanks := Cursor.reaches_skipBlanks c
  unfold Scan.closeTag
  rw [Scan.bind_of_found (skipBlanks_apply hc)]
  cases hbrace : c.skipBlanks.accept? '}' with
  | none =>
    rw [Scan.bind_of_found (Scan.eat_of_none hc.skipBlanks hbrace)]
    refine Meets.refused (d := c.skipBlanks) hblanks ?_
    simp only [closeTag, hbrace]
  | some d =>
    rw [Scan.bind_of_found (Scan.eat_of_accept? hc.skipBlanks hbrace)]
    refine Meets.found (hblanks.trans (Cursor.passes_accept? hbrace).reaches) ?_
    simp only [closeTag, hbrace]

theorem follows_inclusionTag (start : Nat) (hc : c.Within source limit) :
    (Scan.inclusionTag start source limit c.offset).Follows c (inclusionTag start c) := by
  have hblanks := Cursor.reaches_skipBlanks c
  unfold Scan.inclusionTag
  rw [Scan.bind_of_found (skipBlanks_apply hc)]
  refine Meets.bind (follows_path hc.skipBlanks) hblanks (fun names c₁ h₁ hpath => ?_)
    (fun e he => ?_)
  · have hnamed := hblanks.trans h₁
    refine Meets.bind (meets_closeTag _ (hc.of_reaches hnamed)) hnamed
      (fun _ c₂ h₂ hclose => ?_) (fun e he => ?_)
    · refine Meets.found (hnamed.trans h₂) ?_
      simp only [inclusionTag, hpath, hclose]
    · simp only [inclusionTag, hpath, he]
  · simp only [inclusionTag, he]

theorem follows_placeholderTag (start : Nat) (hc : c.Within source limit) :
    (Scan.placeholderTag start source limit c.offset).Follows c (placeholderTag start c) := by
  refine Meets.bind (follows_path hc) (.refl c) (fun names c₁ h₁ hpath => ?_) (fun e he => ?_)
  · refine Meets.bind (follows_filters (hc.of_reaches h₁)) h₁ (fun fs c₂ h₂ hfilters => ?_)
      (fun e he => ?_)
    · have hfiltered := h₁.trans h₂
      refine Meets.bind (meets_closeTag _ (hc.of_reaches hfiltered)) hfiltered
        (fun _ c₃ h₃ hclose => ?_) (fun e he => ?_)
      · refine Meets.found (hfiltered.trans h₃) ?_
        simp only [placeholderTag, hpath, hfilters, hclose]
      · simp only [placeholderTag, hpath, hfilters, he]
    · simp only [placeholderTag, hpath, he]
  · simp only [placeholderTag, he]

theorem follows_tag {rest : List Char} (hc : c.Within source limit)
    (hbrace : c.rest = '{' :: rest) :
    (Scan.tag source limit c.offset).Follows c (tag c.offset ⟨rest, c.offset + 1⟩) := by
  have hreaches : c.Reaches ⟨rest, c.offset + 1⟩ := ⟨['{'], hbrace, rfl⟩
  have hopened := hc.of_reaches hreaches
  unfold Scan.tag
  rw [Scan.bind_of_found (Scan.offset_apply _), Scan.bind_of_found (Scan.advance_apply _ _)]
  cases hsign : (⟨rest, c.offset + 1⟩ : Cursor).accept? '>' with
  | none =>
    rw [Scan.bind_of_found (Scan.eat_of_none hopened hsign)]
    simp only [tag, hsign]
    exact (follows_placeholderTag c.offset hopened).of_reaches hreaches
  | some d =>
    have hinside := hreaches.trans (Cursor.passes_accept? hsign).reaches
    rw [Scan.bind_of_found (Scan.eat_of_accept? hopened hsign)]
    simp only [tag, hsign]
    exact (follows_inclusionTag c.offset (hc.of_reaches hinside)).of_reaches hinside

/-- Where the source ends. -/
def Cursor.finish (c : Cursor) : Cursor := ⟨[], c.offset + byteLength c.rest⟩

theorem Cursor.Reaches.finish_eq (h : c.Reaches d) : d.finish = c.finish := by
  rcases h with ⟨taken, hrest, hoffset⟩
  rw [finish, finish, hrest, hoffset, byteLength_append, Nat.add_assoc]

/-- Behind the plain text that comes next. -/
def Cursor.skipPlain (c : Cursor) : Cursor :=
  ⟨afterPlainText c.rest, c.offset + byteLength (plainText c.rest)⟩

/-- The nodes that are read from a cursor up to the end of the source. -/
def nodesAt (c : Cursor) : Except ReadError (List Node × Cursor) :=
  (nodes c).map fun ns => (ns, c.finish)

/-- What is left to be read of nodes behind a draft. The plain text of the draft goes on with the
    plain text that comes next. -/
def nodesLeft (d : Scan.Draft) (c : Cursor) : Except ReadError (List Node × Cursor) :=
  prepended ((d.extended (plainText c.rest) c.offset).flush c.skipPlain.offset)
    (nodesAt c.skipPlain)

theorem nodesLeft_of_plainText_nil (d : Scan.Draft) (h : plainText c.rest = []) :
    nodesLeft d c = prepended (d.flush c.offset) (nodesAt c) := by
  have hskip : c.skipPlain = c := by
    simp only [Cursor.skipPlain, afterPlainText, h, List.length_nil, List.drop_zero, byteLength_nil,
      Nat.add_zero]
  rw [nodesLeft, hskip, h]
  congr 1
  simp only [Scan.Draft.flush, Scan.Draft.extended, List.append_nil]
  split
  · rfl
  · rfl

/-- A first node, and the nodes that are read behind it. -/
theorem nodesAt_of_nodes {n : Node} (hreaches : c.Reaches d)
    (h : nodes c = (nodes d).map (n :: ·)) : nodesAt c = prepended [n] (nodesAt d) := by
  rw [nodesAt, nodesAt, h, hreaches.finish_eq]
  cases nodes d with
  | error e => rfl
  | ok ns => rfl

/-- Without plain text in the draft it does not matter whether the plain text that comes next is
    read by itself. -/
theorem nodesLeft_fresh (ns : List Node) (k : Nat) (c : Cursor) :
    nodesLeft ⟨ns, [], k⟩ c = prepended ns (nodesAt c) := by
  by_cases hplain : plainText c.rest = []
  · exact nodesLeft_of_plainText_nil _ hplain
  · rcases c with ⟨cs, o⟩
    cases cs with
    | nil => exact absurd rfl hplain
    | cons x rest =>
      have hstarts : StartsPlain (x :: rest) := by
        by_contra hnot
        exact hplain (plainText_eq_nil_iff.mpr hnot)
      have hrun : plainText (x :: rest) = x :: plainText rest := by
        rw [plainText, if_neg hstarts.1, if_neg hstarts.2]
      -- The reader takes the text in one go, and so does a draft that has none of its own.
      have hreaches : (⟨x :: rest, o⟩ : Cursor).Reaches (Cursor.skipPlain ⟨x :: rest, o⟩) :=
        ⟨plainText (x :: rest), (plainText_append _).symm, rfl⟩
      have hbehind : Cursor.skipPlain ⟨x :: rest, o⟩ =
          ⟨afterPlainText rest, o + byteLength (x :: plainText rest)⟩ := by
        simp only [Cursor.skipPlain, afterPlainText, hrun, List.length_cons, List.drop_succ_cons]
      have hnodes := nodes_of_plain hstarts.1 hstarts.2 o
      rw [← hbehind] at hnodes
      rw [nodesAt_of_nodes hreaches hnodes, prepended_prepended, nodesLeft]
      simp only [Scan.Draft.extended, Scan.Draft.flush, hrun, hbehind, List.nil_append,
        List.cons_ne_nil, if_pos, if_false]

/-- A node that is read next is added to the draft. -/
theorem nodesLeft_added {n : Node} (draft : Scan.Draft) (hreaches : c.Reaches d)
    (hplain : plainText c.rest = []) (h : nodes c = (nodes d).map (n :: ·)) :
    nodesLeft draft c = nodesLeft (draft.added c.offset n) d := by
  rw [nodesLeft_of_plainText_nil _ hplain, nodesAt_of_nodes hreaches h, prepended_prepended,
    Scan.Draft.added, nodesLeft_fresh]

/-- A character of plain text that is read next is added to the plain text of the draft. -/
theorem nodesLeft_extended {x : Char} {rest : List Char} (draft : Scan.Draft)
    (hstarts : StartsPlain (x :: rest)) (o : Nat) :
    nodesLeft draft ⟨x :: rest, o⟩ =
      nodesLeft (draft.extended [x] o) ⟨rest, o + x.utf8Size⟩ := by
  have hrun : plainText (x :: rest) = x :: plainText rest := by
    rw [plainText, if_neg hstarts.1, if_neg hstarts.2]
  have hbehind : Cursor.skipPlain ⟨x :: rest, o⟩ = Cursor.skipPlain ⟨rest, o + x.utf8Size⟩ := by
    simp only [Cursor.skipPlain, afterPlainText, hrun, List.length_cons, List.drop_succ_cons,
      byteLength_cons, Nat.add_assoc]
  rw [nodesLeft, nodesLeft, hbehind, hrun]
  congr 2
  simp [Scan.Draft.extended]

theorem doubled_prefix_iff {x y : Char} {rest : List Char} :
    [y, y] <+: x :: rest ↔ x = y ∧ rest.head? = some y := by
  rw [List.cons_prefix_cons, eq_comm (a := y)]
  cases rest with
  | nil => simp only [List.prefix_nil, reduceCtorEq, List.head?_nil]
  | cons z rest =>
    rw [List.cons_prefix_cons, List.head?_cons, Option.some.injEq, eq_comm (a := y)]
    simp only [List.nil_prefix, and_true]

/-- The scanner looks for two braces as the reader does. -/
theorem startsDoubled_iff {x : Char} {rest : List Char} :
    ['{', '{'] <+: x :: rest ∨ ['}', '}'] <+: x :: rest ↔
      (x = '{' ∨ x = '}') ∧ rest.head? = some x := by
  rw [doubled_prefix_iff, doubled_prefix_iff]
  constructor
  · rintro (⟨rfl, hsecond⟩ | ⟨rfl, hsecond⟩)
    · exact ⟨.inl rfl, hsecond⟩
    · exact ⟨.inr rfl, hsecond⟩
  · rintro ⟨rfl | rfl, hsecond⟩
    · exact .inl ⟨rfl, hsecond⟩
    · exact .inr ⟨rfl, hsecond⟩

theorem plainText_doubled {x : Char} (hbrace : x = '{' ∨ x = '}') (rest : List Char) :
    plainText (x :: x :: rest) = [] := by
  refine plainText_eq_nil_iff.mpr fun hstarts => ?_
  rcases hbrace with rfl | rfl
  · exact hstarts.1 rfl
  · exact hstarts.2 ⟨rfl, rfl⟩

theorem steps_nodesTurn (draft : Scan.Draft) (c : Cursor) (hc : c.Within source limit) :
    (Scan.nodesTurn draft source limit c.offset).Steps c nodesLeft (nodesLeft draft c) := by
  rcases c with ⟨rest, o⟩
  unfold Scan.nodesTurn
  rw [Scan.bind_of_found (Scan.offset_apply _)]
  cases rest with
  | nil =>
    rw [Scan.bind_of_found (Scan.peek_nil hc)]
    refine Meets.found (d := ⟨[], o⟩) (.refl _) ?_
    rw [nodesLeft_of_plainText_nil _ rfl, nodesAt, nodes_nil]
    exact congrArg (fun ns => Except.ok (ns, _)) (List.append_nil _)
  | cons x rest =>
    have hahead : Scan.ahead source limit o = .found (String.ofList (x :: rest)) o :=
      Scan.ahead_apply hc
    rw [Scan.bind_of_found (Scan.peek_cons hc)]
    dsimp only
    rw [Scan.bind_of_found hahead]
    simp only [String.toList_ofList, startsDoubled_iff]
    by_cases hdouble : (x = '{' ∨ x = '}') ∧ rest.head? = some x
    · -- Two braces.
      rcases hdouble with ⟨hbrace, hsecond⟩
      rcases List.head?_eq_some_iff.mp hsecond with ⟨behind, rfl⟩
      have hpasses : (⟨x :: x :: behind, o⟩ : Cursor).Passes ⟨behind, o + 2⟩ :=
        ⟨[x, x], List.cons_ne_nil _ _, rfl, by rw [byteLength_doubled hbrace]⟩
      simp only [hbrace, hsecond, and_self, if_pos]
      rw [Scan.bind_of_found (Scan.advance_apply _ _), Scan.bind_of_found (Scan.offset_apply _)]
      refine Meets.found (d := ⟨behind, o + 2⟩) hpasses.reaches ⟨hpasses, ?_⟩
      exact nodesLeft_added draft hpasses.reaches (plainText_doubled hbrace behind)
        (nodes_of_brace hbrace behind o)
    · by_cases hopen : x = '{'
      · -- A tag.
        subst hopen
        have hsingle : rest.head? ≠ some '{' := fun h => hdouble ⟨.inl rfl, h⟩
        have hplain : plainText ('{' :: rest) = [] :=
          plainText_eq_nil_iff.mpr fun hstarts => hstarts.1 rfl
        rw [if_neg hdouble, if_pos rfl]
        refine Meets.bind (follows_tag hc rfl) (.refl _) (fun n d _ hread => ?_) (fun e he => ?_)
        · have hpasses := (Cursor.passes_cons '{' rest o).trans_reaches (passes_tag hread).reaches
          refine Meets.found hpasses.reaches ⟨hpasses, ?_⟩
          exact nodesLeft_added draft hpasses.reaches hplain (nodes_of_tag hsingle hread)
        · rw [nodesLeft_of_plainText_nil _ hplain, nodesAt, nodes_cons, if_neg hdouble, if_pos rfl]
          have he : tag o ⟨rest, o + '{'.utf8Size⟩ = .error e := he
          rw [he]
          rfl
      · -- Plain text.
        have hstarts : StartsPlain (x :: rest) :=
          ⟨hopen, fun hclose => hdouble ⟨.inr hclose.1, hclose.1 ▸ hclose.2⟩⟩
        have hpasses := Cursor.passes_cons x rest o
        simp only [if_neg hdouble, if_neg hopen]
        refine Meets.found (d := ⟨rest, o + x.utf8Size⟩) hpasses.reaches ⟨hpasses, ?_⟩
        exact nodesLeft_extended draft hstarts o

theorem follows_nodes (hc : c.Within source limit) :
    (Scan.nodes source limit c.offset).Follows c (nodesAt c) := by
  have hturns := Follows.repeatedly (s := ⟨[], [], 0⟩) steps_nodesTurn hc
  rwa [nodesLeft_fresh, prepended_nil] at hturns

end Letterpress
