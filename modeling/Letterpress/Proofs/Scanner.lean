import Letterpress.Proofs.Positions

/-!
# Scanning by Offsets

The readers of templates hold the characters that are still to come, so they cannot go wrong in the
ways in which a scanner can that holds a source and an offset into it. Such a scanner moves its
offset by numbers of bytes, sets it back where a look ahead has gone too far, and cuts slices out of
the source; a slice that is cut off a character boundary, or beyond the end, makes it fail. Its
loops need not come to an end either. Here the readers are written as such a scanner, with each step
of the offset and each slice said, and with both ways to go wrong as endings of their own.

A loop is a turn that is taken again until it is the last one, and there is a limit to the number of
turns. That is no promise: a loop that has used up its turns has no result.

What a scan does is said with cursors. A scan meets a specification at a cursor if it starts at its
offset, ends at the offset of a later cursor, and what it finds or refuses is as specified. A slice
is then cut between the offsets of two cursors of the source, which are boundaries. For a loop it is
enough that each turn leads on from what is to be read to what is left of it, and that a turn that
is not the last one takes something.

## Main definitions

* `Ending`, `Scan`: A scan, and the four ways in which it ends.
* `Scan.peek`, `Scan.bump`, `Scan.eat`, `Scan.slice`: The elementary steps.
* `Turn`, `Scan.turns`, `Scan.repeatedly`: Loops.
* `Scan.identifier`, `Scan.path`, `Scan.quotedText`, `Scan.arguments`, `Scan.filters`, `Scan.tag`,
  `Scan.nodes`: The scanner.
* `Cursor.Within`: A cursor of the source that is left within the limit.
* `Ending.Meets`, `Ending.Follows`, `Ending.Steps`: A scan, and a turn, do what is specified.

## Theorems

* `Ending.Meets.bind`: One scan after another.
* `Ending.Follows.turns`: If every turn leads on, the loop does what is to be read.
* `ahead_apply`, `slice_apply`: No slice between cursors is cut off a boundary.
-/

namespace Letterpress

/-- How a scan ends, and at which offset. -/
inductive Ending (α : Type) where
  | found (a : α) (stop : Nat)
  | refused (e : ReadError) (stop : Nat)
  /-- A slice was to be cut off a character boundary, or beyond the end. -/
  | astray
  /-- A loop has used up its turns. -/
  | endless
  deriving DecidableEq, Repr

/-- A scan of a source, with a limit to the turns of its loops, from an offset on. -/
def Scan (α : Type) : Type := String → Nat → Nat → Ending α

/-- One turn of a loop: there is more to do, or this was the last one. -/
inductive Turn (σ α : Type) where
  | again (s : σ)
  | last (a : α)
  deriving DecidableEq, Repr

namespace Ending

/-- Goes on where something was found. -/
def andThen {α β : Type} (x : Ending α) (f : α → Nat → Ending β) : Ending β :=
  match x with
  | .found a stop => f a stop
  | .refused e stop => .refused e stop
  | .astray => .astray
  | .endless => .endless

/-- What was found or refused, if the scan has not gone wrong. -/
def result? {α : Type} : Ending α → Option (Except ReadError α)
  | .found a _ => some (.ok a)
  | .refused e _ => some (.error e)
  | .astray => none
  | .endless => none

end Ending

namespace Scan

instance : Monad Scan where
  pure a := fun _ _ o => .found a o
  bind x f := fun source limit o => (x source limit o).andThen fun a stop => f a source limit stop

/-- The offset at which the scan is. -/
def offset : Scan Nat := fun _ _ o => .found o o

/-- Goes to an offset, be it forward or back. -/
def goTo (target : Nat) : Scan Unit := fun _ _ _ => .found () target

/-- Goes forward by a number of bytes. -/
def advance (bytes : Nat) : Scan Unit := fun _ _ o => .found () (o + bytes)

/-- Gives up, with a fault at the given offset. -/
def refuse {α : Type} (fault : ReadFault) (place : Nat) : Scan α :=
  fun _ _ o => .refused ⟨fault, place⟩ o

instance (span : Span) (source : String) : Decidable (span.IsAligned source) :=
  inferInstanceAs (Decidable (_ ∧ _))

/-- Cuts out what stands between two offsets. Both have to be character boundaries, in order. -/
def slice (start stop : Nat) : Scan String := fun source _ o =>
  if start ≤ stop ∧ (⟨start, stop⟩ : Span).IsAligned source then
    .found ((⟨start, stop⟩ : Span).slice source) o
  else .astray

/-- Cuts out all that is still to come. -/
def ahead : Scan String := fun source limit o => slice o source.utf8ByteSize source limit o

/-- Looks at the next character. -/
def peek : Scan (Option Char) := do
  return (← ahead).toList.head?

/-- Goes past the next character. -/
def bump : Scan (Option Char) := do
  match ← peek with
  | none => return none
  | some c =>
    advance c.utf8Size
    return some c

/-- Goes past the next character if it is the expected one. -/
def eat (x : Char) : Scan Bool := do
  if (← peek) = some x then
    advance x.utf8Size
    return true
  else return false

/-- Takes up to `n` turns. -/
def turns {σ α : Type} (turn : σ → Scan (Turn σ α)) : Nat → σ → Scan α
  | 0, _ => fun _ _ _ => .endless
  | n + 1, s => do
    match ← turn s with
    | .again s => turns turn n s
    | .last a => return a

/-- Takes turns up to the last one, within the limit. -/
def repeatedly {σ α : Type} (turn : σ → Scan (Turn σ α)) (s : σ) : Scan α :=
  fun source limit o => turns turn limit s source limit o

/-- Goes past the next character if it satisfies a condition. -/
def skipTurn (p : Char → Bool) (_ : Unit) : Scan (Turn Unit Unit) := do
  match ← peek with
  | none => return .last ()
  | some c =>
    if p c then
      advance c.utf8Size
      return .again ()
    else return .last ()

/-- Goes past characters as long as they satisfy a condition. -/
def skipWhile (p : Char → Bool) : Scan Unit := repeatedly (skipTurn p) ()

/-- Goes past the blanks that come next. -/
def skipBlanks : Scan Unit := skipWhile Text.isBlank

/-- Scans one name. -/
def identifier : Scan String := do
  let start ← offset
  match ← peek with
  | none => refuse .identifierExpected (← offset)
  | some c =>
    if isNameStart c then
      advance c.utf8Size
      skipWhile isNamePart
      slice start (← offset)
    else refuse .identifierExpected (← offset)

/-- Scans a point and a name. -/
def pathTurn (names : List String) : Scan (Turn (List String) (List String)) := do
  if ← eat '.' then return .again (names ++ [← identifier])
  else return .last names

/-- Scans names with points between them. -/
def path : Scan (List String) := do
  repeatedly pathTurn [← identifier]

/-- Scans an escape from behind its backslash. -/
def escapeTurn (quote : Char) (s : List Char) : Scan (Turn (List Char) (List Char)) := do
  let escape := (← offset) - 1
  match ← bump with
  | none => refuse .escapeUnfinished (← offset)
  | some e =>
    if isEscapable quote e then return .again (s ++ [e])
    else refuse (.escapeUnknown e) escape

/-- Scans a character of text in quotes, or an escape. The text was opened at `opened`. -/
def quotedTurn (quote : Char) (opened : Nat) (s : List Char) :
    Scan (Turn (List Char) (List Char)) := do
  match ← bump with
  | none => refuse .quoteUnclosed opened
  | some c =>
    if c = quote then return .last s
    else if c = '\\' then escapeTurn quote s
    else return .again (s ++ [c])

/-- Scans quoted text from its opening quote on. -/
def quotedText (quote : Char) : Scan String := do
  let opened ← offset
  advance quote.utf8Size
  return String.ofList (← repeatedly (quotedTurn quote opened) [])

/-- Scans what stands behind a quoted argument: a comma, or a sign that ends the arguments. -/
def quotedEnd (args : List String) : Scan (Turn (List String) (List String)) := do
  skipBlanks
  match ← peek with
  | none => return .last args
  | some c =>
    if c = ',' then
      advance 1
      return .again args
    else if isArgumentEnd c then return .last args
    else refuse .commaExpected (← offset)

/-- Scans one argument, and the comma behind it. If there is no quote behind the blanks, they belong
    to the argument, and the scan goes back to them. -/
def argumentsTurn (args : List String) : Scan (Turn (List String) (List String)) := do
  let start ← offset
  skipBlanks
  match (← peek).filter isQuote with
  | some quote =>
    let arg ← quotedText quote
    quotedEnd (args ++ [arg])
  | none =>
    goTo start
    skipWhile fun c => !isArgumentEnd c
    let arg ← slice start (← offset)
    if ← eat ',' then return .again (args ++ [Text.trim arg])
    else return .last (args ++ [Text.trim arg])

/-- Scans arguments with commas between them. -/
def arguments : Scan (List String) := repeatedly argumentsTurn []

/-- Scans what may follow the name of a filter. If there is no colon behind the blanks, the filter
    ends with its name, and the scan goes back to there. -/
def filterArguments : Scan (List String) := do
  let named ← offset
  skipBlanks
  if ← eat ':' then arguments
  else
    goTo named
    return []

/-- Scans one filter with its pipe. -/
def filtersTurn (fs : List FilterUse) : Scan (Turn (List FilterUse) (List FilterUse)) := do
  skipBlanks
  if (← peek) = some '|' then
    let start ← offset
    advance 1
    skipBlanks
    let name ← identifier
    let args ← filterArguments
    return .again (fs ++ [⟨name, args, ⟨start, ← offset⟩⟩])
  else return .last fs

/-- Scans a chain of filters. -/
def filters : Scan (List FilterUse) := repeatedly filtersTurn []

/-- Closes a tag, or gives up with the given fault. -/
def closeTag (fault : ReadFault) : Scan Unit := do
  skipBlanks
  if ← eat '}' then return ()
  else refuse fault (← offset)

/-- Scans an inclusion from behind its sign, in a tag that was opened at `start`. -/
def inclusionTag (start : Nat) : Scan Node := do
  skipBlanks
  let names ← path
  closeTag (.inclusionUnclosed (dotted names))
  return .inclusion ⟨dotted names, ⟨start, ← offset⟩⟩

/-- Scans a placeholder in a tag that was opened at `start`. -/
def placeholderTag (start : Nat) : Scan Node := do
  let names ← path
  let fs ← filters
  closeTag (.placeholderUnclosed (dotted names))
  return .placeholder ⟨names, fs, ⟨start, ← offset⟩⟩

/-- Scans a tag from its opening brace on. -/
def tag : Scan Node := do
  let start ← offset
  advance 1
  if ← eat '>' then inclusionTag start
  else placeholderTag start

/-- The nodes so far, and the plain text that has not become a node yet, with its offset. -/
structure Draft where
  nodes : List Node
  plain : List Char
  plainStart : Nat
  deriving DecidableEq, Repr

namespace Draft

/-- Adds plain text that stands at an offset. -/
def extended (d : Draft) (cs : List Char) (start : Nat) : Draft :=
  ⟨d.nodes, d.plain ++ cs, if d.plain = [] then start else d.plainStart⟩

/-- The nodes so far, and behind them the plain text as a node if there is any. -/
def flush (d : Draft) (stop : Nat) : List Node :=
  if d.plain = [] then d.nodes
  else d.nodes ++ [.text (String.ofList d.plain) ⟨d.plainStart, stop⟩]

/-- Adds a node behind the plain text, which ends at an offset. -/
def added (d : Draft) (stop : Nat) (n : Node) : Draft := ⟨d.flush stop ++ [n], [], d.plainStart⟩

end Draft

/-- Scans two braces, a tag or a character of plain text. -/
def nodesTurn (d : Draft) : Scan (Turn Draft (List Node)) := do
  let start ← offset
  match ← peek with
  | none => return .last (d.flush start)
  | some c =>
    let rest ← ahead
    if ['{', '{'] <+: rest.toList ∨ ['}', '}'] <+: rest.toList then
      advance 2
      return .again (d.added start (.text c.toString ⟨start, ← offset⟩))
    else if c = '{' then return .again (d.added start (← tag))
    else
      advance c.utf8Size
      return .again (d.extended [c] start)

/-- Scans nodes up to the end of the source. -/
def nodes : Scan (List Node) := repeatedly nodesTurn ⟨[], [], 0⟩

end Scan

/-- The cursor is one of the source, and fewer characters are left than the limit. -/
structure Cursor.Within (source : String) (limit : Nat) (c : Cursor) : Prop where
  reached : (Cursor.start source).Reaches c
  fits : c.rest.length < limit

namespace Ending

variable {α β σ : Type} {source : String} {limit : Nat} {b c d : Cursor}

/-- The scan ends at the offset of a later cursor, with something found or refused as specified. -/
inductive Meets (c : Cursor) (P : α → Cursor → Prop) (R : ReadError → Prop) : Ending α → Prop where
  | found {a : α} {d : Cursor} (hreaches : c.Reaches d) (h : P a d) :
      Meets c P R (.found a d.offset)
  | refused {e : ReadError} {d : Cursor} (hreaches : c.Reaches d) (h : R e) :
      Meets c P R (.refused e d.offset)

/-- The scan does what a reader does. -/
def Follows (c : Cursor) (reading : Except ReadError (α × Cursor)) : Ending α → Prop :=
  Meets c (fun a d => reading = .ok (a, d)) (fun e => reading = .error e)

/-- The turn leads on from what is to be read to what is left to be read. -/
def Steps (c : Cursor) (left : σ → Cursor → Except ReadError (α × Cursor))
    (reading : Except ReadError (α × Cursor)) : Ending (Turn σ α) → Prop :=
  Meets c
    (fun t d => match t with
      | .again s => c.Passes d ∧ reading = left s d
      | .last a => reading = .ok (a, d))
    (fun e => reading = .error e)

end Ending

theorem Cursor.accept?_of_head? {x : Char} {c : Cursor} (h : c.rest.head? = some x) :
    c.accept? x = some ⟨c.rest.tail, c.offset + x.utf8Size⟩ := by
  rcases c with ⟨rest, o⟩
  rcases List.head?_eq_some_iff.mp h with ⟨tail, rfl⟩
  exact accept?_cons_self x tail o

theorem Cursor.accept?_of_head?_ne {x : Char} {c : Cursor} (h : c.rest.head? ≠ some x) :
    c.accept? x = none := by
  refine accept?_eq_none fun d hd => beq_eq_false_iff_ne.mpr ?_
  rintro rfl
  exact h hd

theorem Cursor.Within.of_reaches {source : String} {limit : Nat} {c d : Cursor}
    (hc : c.Within source limit) (h : c.Reaches d) : d.Within source limit :=
  ⟨hc.reached.trans h, Nat.lt_of_le_of_lt h.length_le hc.fits⟩

namespace Scan

variable {α β σ : Type} {source : String} {limit : Nat} {c d : Cursor}

@[simp]
theorem pure_apply (a : α) (o : Nat) : (pure a : Scan α) source limit o = .found a o := rfl

@[simp]
theorem offset_apply (o : Nat) : offset source limit o = .found o o := rfl

@[simp]
theorem goTo_apply (target o : Nat) : goTo target source limit o = .found () target := rfl

@[simp]
theorem advance_apply (bytes o : Nat) : advance bytes source limit o = .found () (o + bytes) := rfl

theorem bind_apply (x : Scan α) (f : α → Scan β) (o : Nat) :
    (x >>= f) source limit o =
      (x source limit o).andThen fun a stop => f a source limit stop := rfl

theorem bind_of_found {x : Scan α} {f : α → Scan β} {o stop : Nat} {a : α}
    (h : x source limit o = .found a stop) :
    (x >>= f) source limit o = f a source limit stop := by
  rw [bind_apply, h]
  rfl

/-- Between two cursors of a source a slice can be cut. -/
theorem slice_apply {cs : List Char} (hc : c.Within source limit) (h : c.Takes cs d) (o : Nat) :
    slice c.offset d.offset source limit o = .found (String.ofList cs) o := by
  rcases hc.reached with ⟨before, hrest, hoffset⟩
  rcases h with ⟨htaken, hstop⟩
  rw [Cursor.start, Nat.zero_add] at hoffset
  -- What is in front of the first cursor, and what is taken, begin the source.
  have hstands : StandsIn source before cs ⟨c.offset, d.offset⟩ := by
    refine ⟨⟨d.rest, ?_⟩, ?_⟩
    · rw [List.append_assoc, ← htaken]
      exact hrest
    · rw [hstop, hoffset, byteLength_append]
  have horder : c.offset ≤ d.offset := by omega
  unfold slice
  rw [if_pos ⟨horder, hstands.isAligned⟩, hstands.slice_eq]

/-- All that is still to come at a cursor is what it holds. -/
theorem ahead_apply (hc : c.Within source limit) :
    ahead source limit c.offset = .found (String.ofList c.rest) c.offset := by
  rcases hc.reached with ⟨before, hrest, hoffset⟩
  have hstop : source.utf8ByteSize = c.offset + byteLength c.rest := by
    rw [← byteLength_toList, hoffset, Cursor.start, Nat.zero_add, ← byteLength_append]
    exact congrArg byteLength hrest
  have htakes : c.Takes c.rest ⟨[], source.utf8ByteSize⟩ := ⟨(List.append_nil _).symm, hstop⟩
  exact slice_apply hc htakes c.offset

theorem peek_apply (hc : c.Within source limit) :
    peek source limit c.offset = .found c.rest.head? c.offset := by
  unfold peek
  rw [bind_of_found (ahead_apply hc), String.toList_ofList, pure_apply]

theorem peek_cons {x : Char} {rest : List Char} {o : Nat}
    (hc : (⟨x :: rest, o⟩ : Cursor).Within source limit) :
    peek source limit o = .found (some x) o :=
  peek_apply hc

theorem peek_nil {o : Nat} (hc : (⟨[], o⟩ : Cursor).Within source limit) :
    peek source limit o = .found none o :=
  peek_apply hc

theorem bump_cons {x : Char} {rest : List Char} {o : Nat}
    (hc : (⟨x :: rest, o⟩ : Cursor).Within source limit) :
    bump source limit o = .found (some x) (o + x.utf8Size) := by
  unfold bump
  rw [bind_of_found (peek_cons hc)]
  rfl

theorem bump_nil {o : Nat} (hc : (⟨[], o⟩ : Cursor).Within source limit) :
    bump source limit o = .found none o := by
  unfold bump
  rw [bind_of_found (peek_nil hc)]
  rfl

theorem eat_of_accept? {x : Char} (hc : c.Within source limit) (h : c.accept? x = some d) :
    eat x source limit c.offset = .found true d.offset := by
  rcases Cursor.takes_accept? h with ⟨hrest, hoffset⟩
  have hnext : c.rest.head? = some x := by
    rw [hrest]
    rfl
  unfold eat
  rw [bind_of_found (peek_apply hc), if_pos hnext, hoffset]
  rfl

theorem eat_of_none {x : Char} (hc : c.Within source limit) (h : c.accept? x = none) :
    eat x source limit c.offset = .found false c.offset := by
  have hnext : c.rest.head? ≠ some x := by
    intro hsome
    rw [Cursor.accept?_of_head? hsome] at h
    cases h
  unfold eat
  rw [bind_of_found (peek_apply hc), if_neg hnext]
  rfl

end Scan

namespace Ending

variable {α β σ : Type} {source : String} {limit : Nat} {b c d : Cursor}

/-- What is reached from a cursor is reached from the cursors in front of it. -/
theorem Meets.of_reaches {x : Ending α} {P : α → Cursor → Prop} {R : ReadError → Prop}
    (hx : x.Meets b P R) (hb : c.Reaches b) : x.Meets c P R := by
  cases hx with
  | found hreaches h => exact .found (hb.trans hreaches) h
  | refused hreaches h => exact .refused (hb.trans hreaches) h

theorem Meets.andThen {x : Ending α} {f : α → Nat → Ending β} {P : α → Cursor → Prop}
    {Q : β → Cursor → Prop} {R S : ReadError → Prop} (hx : x.Meets b P R) (hb : c.Reaches b)
    (hfound : ∀ a d, b.Reaches d → P a d → (f a d.offset).Meets c Q S)
    (hrefused : ∀ e, R e → S e) : (x.andThen f).Meets c Q S := by
  cases hx with
  | found hreaches h => exact hfound _ _ hreaches h
  | refused hreaches h => exact .refused (hb.trans hreaches) (hrefused _ h)

/-- One scan after another. The second one goes on where the first one has ended. -/
theorem Meets.bind {x : Scan α} {f : α → Scan β} {P : α → Cursor → Prop}
    {Q : β → Cursor → Prop} {R S : ReadError → Prop} (hx : (x source limit b.offset).Meets b P R)
    (hb : c.Reaches b)
    (hfound : ∀ a d, b.Reaches d → P a d → (f a source limit d.offset).Meets c Q S)
    (hrefused : ∀ e, R e → S e) : ((x >>= f) source limit b.offset).Meets c Q S :=
  hx.andThen hb hfound hrefused

theorem Follows.eq_found {x : Ending α} {a : α} (hx : x.Follows c (.ok (a, d))) :
    x = .found a d.offset := by
  cases hx with
  | found _ h =>
    cases h
    rfl
  | refused _ h => cases h

/-- If every turn leads on from what is to be read to what is left of it, the loop does what is to
    be read, for a turn that is not the last one takes at least one character. -/
theorem Follows.turns {turn : σ → Scan (Turn σ α)}
    {left : σ → Cursor → Except ReadError (α × Cursor)}
    (hturn : ∀ s c, c.Within source limit →
      (turn s source limit c.offset).Steps c left (left s c))
    {n : Nat} {s : σ} (hc : c.Within source limit) (hn : c.rest.length < n) :
    (Scan.turns turn n s source limit c.offset).Follows c (left s c) := by
  induction n generalizing s c with
  | zero => omega
  | succ n ih =>
    refine Meets.bind (hturn s c hc) (.refl c) (fun t d hreaches ht => ?_) (fun _ he => he)
    cases t with
    | last a => exact .found hreaches ht
    | again s =>
      rcases ht with ⟨hpasses, hleft⟩
      -- A turn is paid for by a character.
      have hlength := hpasses.length_lt
      have hothers := ih (s := s) (hc.of_reaches hreaches) (by omega)
      rw [← hleft] at hothers
      exact hothers.of_reaches hreaches

theorem Follows.repeatedly {turn : σ → Scan (Turn σ α)}
    {left : σ → Cursor → Except ReadError (α × Cursor)}
    (hturn : ∀ s c, c.Within source limit →
      (turn s source limit c.offset).Steps c left (left s c))
    {s : σ} (hc : c.Within source limit) :
    (Scan.repeatedly turn s source limit c.offset).Follows c (left s c) :=
  Follows.turns hturn hc hc.fits

end Ending

end Letterpress
