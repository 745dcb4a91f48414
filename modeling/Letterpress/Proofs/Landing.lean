import Letterpress.Proofs.Scanning

/-!
# Scans Land

A scan starts at a boundary of the source and ends at one, not in front of the first, wherever it
has been in between; and if it has found something that has characters of its own, it ends behind
where it has started. So it can be started again from there, no slice is ever cut off a boundary,
and no loop goes round for ever, for each of its turns takes a character or is the last one.

All of this follows from what the readers do. A cursor of the source lies at a boundary, and every
boundary is the offset of a cursor. Scans end at cursors that are reached from the one where they
have started, and readers that have read something have passed it. Not all of them have to: there
may be no blanks and no filters, and a list of arguments that is closed at once has one argument
without a character. Its reader says so by where it stops, since behind arguments there is no comma.

## Main definitions

* `Ending.Lands`: A scan has ended on a boundary, and has moved where it has to.
* `ScansSafely`: From an offset every scan lands.
* `ScansAsRead`: From a cursor every scan does what the reader does.

## Theorems

* `exists_cursor`: Every boundary is the offset of a cursor.
* `Ending.Meets.lands`, `Ending.Steps.lands`: What a scan is specified to do makes it land.
* `endsAt_arguments`, `passes_arguments`: Where arguments end, and when they take something.
* `scansSafely`, `scansAsRead`: At a cursor of the source.
* `scanner_lands_and_reads`: All of it, for every source.
-/

namespace Letterpress

open Ending (Meets Follows Steps)

variable {α σ : Type} {source : String} {limit : Nat} {c d : Cursor}

/-- The scan ends on a character boundary of the source, not in front of the offset at which it has
    started, and behind it where it has to have moved. -/
def Ending.Lands {α : Type} (source : String) (start : Nat) (moved : α → Prop) : Ending α → Prop
  | .found a stop => start ≤ stop ∧ stop ≤ source.utf8ByteSize ∧
      (⟨stop⟩ : String.Pos.Raw).IsValid source ∧ (moved a → start < stop)
  | .refused _ stop => start ≤ stop ∧ stop ≤ source.utf8ByteSize ∧
      (⟨stop⟩ : String.Pos.Raw).IsValid source
  | .astray => False
  | .endless => False

/-- There are more turns to take. -/
def Turn.GoesOn {σ α : Type} (t : Turn σ α) : Prop := ∃ s, t = .again s

/-- Wherever a scan starts from an offset, it lands, and what has been read has taken something.
    Blanks, filters and arguments may be none: there is nothing to take without a blank, without a
    filter, or where the list of arguments is closed at once and its only argument is blank. A quote
    and a tag are read where their opening sign stands. A turn that is not the last one of its loop
    takes something, whatever the turns before have found. -/
structure ScansSafely (source : String) (limit start : Nat) : Prop where
  skipBlanks : (Scan.skipBlanks source limit start).Lands source start fun _ =>
    ∃ x ∈ String.Pos.Raw.get? source ⟨start⟩, Text.isBlank x = true
  identifier : (Scan.identifier source limit start).Lands source start fun _ => True
  path : (Scan.path source limit start).Lands source start fun _ => True
  filters : (Scan.filters source limit start).Lands source start fun fs => fs ≠ []
  arguments : (Scan.arguments source limit start).Lands source start fun _ =>
    ∃ x ∈ String.Pos.Raw.get? source ⟨start⟩, x ≠ '|' ∧ x ≠ '}'
  quotedText : ∀ quote, String.Pos.Raw.get? source ⟨start⟩ = some quote →
    (Scan.quotedText quote source limit start).Lands source start fun _ => True
  tag : String.Pos.Raw.get? source ⟨start⟩ = some '{' →
    (Scan.tag source limit start).Lands source start fun _ => True
  argumentsTurn : ∀ args,
    (Scan.argumentsTurn args source limit start).Lands source start Turn.GoesOn
  filtersTurn : ∀ fs, (Scan.filtersTurn fs source limit start).Lands source start Turn.GoesOn
  nodesTurn : ∀ draft, (Scan.nodesTurn draft source limit start).Lands source start Turn.GoesOn

/-- At a cursor of the source each scan finds or refuses what the reader does, and ends where the
    reader ends. -/
structure ScansAsRead (source : String) (limit : Nat) (c : Cursor) : Prop where
  skipBlanks : (Scan.skipBlanks source limit c.offset).Follows c (.ok ((), c.skipBlanks))
  identifier : (Scan.identifier source limit c.offset).Follows c (identifier c)
  path : (Scan.path source limit c.offset).Follows c (path c)
  filters : (Scan.filters source limit c.offset).Follows c (filters c)
  arguments : (Scan.arguments source limit c.offset).Follows c (arguments c)
  quotedText : ∀ quote rest, c.rest = quote :: rest →
    (Scan.quotedText quote source limit c.offset).Follows c (quotedAt quote c)
  tag : ∀ rest, c.rest = '{' :: rest →
    (Scan.tag source limit c.offset).Follows c (tag c.offset ⟨rest, c.offset + 1⟩)

theorem Cursor.Reaches.offset_le (h : c.Reaches d) : c.offset ≤ d.offset := by
  rcases h with ⟨taken, _, hoffset⟩
  omega

theorem Cursor.Passes.offset_lt (h : c.Passes d) : c.offset < d.offset := by
  rcases h with ⟨taken, hne, _, hoffset⟩
  have hpos := byteLength_pos hne
  omega

theorem Cursor.Reaches.isValid (h : (Cursor.start source).Reaches c) :
    (⟨c.offset⟩ : String.Pos.Raw).IsValid source := by
  rcases h with ⟨before, hrest, hoffset⟩
  rw [hoffset, Cursor.start, Nat.zero_add]
  exact isValid_of_append hrest

theorem Cursor.Reaches.offset_le_size (h : (Cursor.start source).Reaches c) :
    c.offset ≤ source.utf8ByteSize := by
  rcases h with ⟨before, hrest, hoffset⟩
  have hsize := congrArg byteLength hrest
  rw [byteLength_append] at hsize
  rw [← byteLength_toList, hoffset, Cursor.start, Nat.zero_add]
  exact Nat.le.intro hsize.symm

/-- The character at the offset of a cursor is the next one. -/
theorem Cursor.Reaches.get?_eq (h : (Cursor.start source).Reaches c) :
    String.Pos.Raw.get? source ⟨c.offset⟩ = c.rest.head? := by
  rcases h with ⟨before, hrest, hoffset⟩
  have hnext := String.get?_of_valid before c.rest
  have hsource : source.toList = before ++ c.rest := hrest
  rw [← hsource, String.ofList_toList, utf8Len_eq_byteLength] at hnext
  rw [hoffset, Cursor.start, Nat.zero_add]
  exact hnext

/-- Every boundary is the offset of a cursor. -/
theorem exists_cursor {start : Nat} (h : (⟨start⟩ : String.Pos.Raw).IsValid source) :
    ∃ c, (Cursor.start source).Reaches c ∧ c.offset = start := by
  rcases isValid_iff.mp h with ⟨before, after, hsource, hstart⟩
  exact ⟨⟨after, start⟩, ⟨before, hsource, by rw [hstart, Cursor.start, Nat.zero_add]⟩, rfl⟩

/-- A scan that meets its specification lands. -/
theorem Ending.Meets.lands {x : Ending α} {P : α → Cursor → Prop} {R : ReadError → Prop}
    {moved : α → Prop} (hx : x.Meets c P R) (hc : (Cursor.start source).Reaches c)
    (hmoved : ∀ a d, P a d → moved a → c.Passes d) : x.Lands source c.offset moved := by
  cases hx with
  | found hreaches h =>
    have hd := hc.trans hreaches
    exact ⟨hreaches.offset_le, hd.offset_le_size, hd.isValid,
      fun hm => (hmoved _ _ h hm).offset_lt⟩
  | refused hreaches _ =>
    have hd := hc.trans hreaches
    exact ⟨hreaches.offset_le, hd.offset_le_size, hd.isValid⟩

/-- A turn that leads on lands, and has moved if it is not the last one. -/
theorem Ending.Steps.lands {x : Ending (Turn σ α)}
    {left : σ → Cursor → Except ReadError (α × Cursor)}
    {reading : Except ReadError (α × Cursor)} (hx : x.Steps c left reading)
    (hc : (Cursor.start source).Reaches c) : x.Lands source c.offset Turn.GoesOn := by
  refine Meets.lands hx hc ?_
  rintro _ d h ⟨s, rfl⟩
  exact h.1

theorem passes_skipBlanks {x : Char} (hnext : c.rest.head? = some x) (hx : Text.isBlank x = true) :
    c.Passes c.skipBlanks := by
  rcases List.head?_eq_some_iff.mp hnext with ⟨rest, hrest⟩
  refine ⟨c.rest.takeWhile Text.isBlank, ?_, (Cursor.takes_skipBlanks c).1, rfl⟩
  rw [hrest, List.takeWhile_cons_of_pos hx]
  exact List.cons_ne_nil _ _

theorem passes_filters {fs : List FilterUse} (h : filters c = .ok (fs, d)) (hne : fs ≠ []) :
    c.Passes d := by
  rcases takes_filters h with ⟨cs, hchain, htakes, _⟩
  refine ⟨cs, ?_, htakes⟩
  cases hchain with
  | nil => exact absurd rfl hne
  | cons => exact List.append_ne_nil_of_right_ne_nil _ (List.cons_ne_nil _ _)

/-- Behind arguments there is no comma. -/
theorem endsAt_arguments {args : List String} (h : arguments c = .ok (args, d)) :
    EndsAt filterEnds d.rest := by
  fun_induction arguments c generalizing args d with
  | case1 => cases h
  | case2 c arg c₁ h₁ hcomma =>
    cases h
    rcases takes_argument h₁ with ⟨_, _, _, hend⟩
    intro x hx
    rcases List.mem_cons.mp (hend x hx) with rfl | hx'
    · rw [Cursor.accept?_of_head? (Option.mem_def.mp hx)] at hcomma
      cases hcomma
    · exact hx'
  | case3 => cases h
  | case4 c arg c₁ h₁ c₂ h₂ args' c₃ h₃ ih =>
    cases h
    exact ih h₃

/-- Arguments take something, unless their list is closed at once. -/
theorem passes_arguments {args : List String} {x : Char} (h : arguments c = .ok (args, d))
    (hnext : c.rest.head? = some x) (hx : x ≠ '|' ∧ x ≠ '}') : c.Passes d := by
  rcases takes_arguments h with ⟨cs, _, htakes, _⟩
  refine ⟨cs, ?_, htakes⟩
  rintro rfl
  have hrest : c.rest = d.rest := htakes.1
  rw [hrest] at hnext
  rcases mem_filterEnds.mp (endsAt_arguments h x hnext) with rfl | rfl
  · exact hx.1 rfl
  · exact hx.2 rfl

theorem passes_quotedAt {quote : Char} {rest : List Char} {s : String}
    (hrest : c.rest = quote :: rest) (h : quotedAt quote c = .ok (s, d)) : c.Passes d := by
  have hopened : c.Passes ⟨rest, c.offset + quote.utf8Size⟩ :=
    ⟨[quote], List.cons_ne_nil _ _, hrest, rfl⟩
  rw [quotedAt, hrest, List.tail_cons] at h
  cases hread : quotedText quote c.offset rest (c.offset + quote.utf8Size) with
  | error e =>
    rw [hread] at h
    cases h
  | ok r =>
    rw [hread] at h
    cases h
    exact hopened.trans_reaches (passes_quotedText hread).reaches

theorem scansAsRead (hc : c.Within source limit) : ScansAsRead source limit c := by
  constructor
  case skipBlanks =>
    rw [skipBlanks_apply hc]
    exact .found (Cursor.reaches_skipBlanks c) rfl
  case identifier => exact follows_identifier hc
  case path => exact follows_path hc
  case filters => exact follows_filters hc
  case arguments => exact follows_arguments hc
  case quotedText => exact fun quote rest hrest => follows_quotedText hc hrest
  case tag => exact fun rest hrest => follows_tag hc hrest

theorem scansSafely (hc : c.Within source limit) : ScansSafely source limit c.offset := by
  have hread := scansAsRead hc
  have hnext := hc.reached.get?_eq
  constructor
  -- Where a scanner lands follows from what is read; that it moves, from what it needs to begin.
  case skipBlanks =>
    refine Meets.lands hread.skipBlanks hc.reached ?_
    rintro _ d h ⟨x, hx, hblank⟩
    cases h
    exact passes_skipBlanks (hnext ▸ hx) hblank
  case identifier =>
    exact Meets.lands hread.identifier hc.reached fun _ _ h _ => passes_identifier h
  case path => exact Meets.lands hread.path hc.reached fun _ _ h _ => passes_path h
  case filters => exact Meets.lands hread.filters hc.reached fun _ _ h hne => passes_filters h hne
  case arguments =>
    refine Meets.lands hread.arguments hc.reached ?_
    rintro args d h ⟨x, hx, hsign⟩
    exact passes_arguments h (hnext ▸ hx) hsign
  case quotedText =>
    intro quote hquote
    rw [hnext] at hquote
    rcases List.head?_eq_some_iff.mp hquote with ⟨rest, hrest⟩
    exact Meets.lands (hread.quotedText quote rest hrest) hc.reached fun _ _ h _ =>
      passes_quotedAt hrest h
  case tag =>
    intro hbrace
    rw [hnext] at hbrace
    rcases List.head?_eq_some_iff.mp hbrace with ⟨rest, hrest⟩
    have hopened : c.Reaches ⟨rest, c.offset + 1⟩ := ⟨['{'], hrest, rfl⟩
    exact Meets.lands (hread.tag rest hrest) hc.reached fun _ _ h _ =>
      hopened.trans_passes (passes_tag h)
  case argumentsTurn =>
    exact fun args => Ending.Steps.lands (steps_argumentsTurn args c hc) hc.reached
  case filtersTurn =>
    exact fun fs => Ending.Steps.lands (steps_filtersTurn fs c hc) hc.reached
  case nodesTurn =>
    exact fun draft => Ending.Steps.lands (steps_nodesTurn draft c hc) hc.reached

theorem Ending.Follows.result?_eq {x : Ending α} {reading : Except ReadError (α × Cursor)}
    (hx : x.Follows c reading) : x.result? = some (reading.map Prod.fst) := by
  cases hx with
  | found _ h =>
    rw [h]
    rfl
  | refused _ h =>
    rw [h]
    rfl

theorem fst_nodesAt (c : Cursor) : (nodesAt c).map Prod.fst = nodes c := by
  rw [nodesAt]
  cases nodes c with
  | error e => rfl
  | ok ns => rfl

theorem length_le_byteLength (cs : List Char) : cs.length ≤ byteLength cs := by
  induction cs with
  | nil => exact Nat.le_refl 0
  | cons x cs ih =>
    have hx := x.utf8Size_pos
    rw [List.length_cons, byteLength_cons]
    omega

/-- With a limit that is greater than the source, every cursor of the source is within the limit. -/
theorem within_of_reaches (hlimit : source.utf8ByteSize < limit)
    (hc : (Cursor.start source).Reaches c) : c.Within source limit := by
  have hleft : c.rest.length ≤ source.toList.length := hc.length_le
  have hbytes := length_le_byteLength source.toList
  rw [byteLength_toList] at hbytes
  exact ⟨hc, by omega⟩

/-- The scanner is safe and makes progress. From every boundary of the source each scan lands, so no
    slice is cut off a boundary and no loop runs out of turns, and every turn of a loop takes
    something or is the last one. At every cursor the scans are those of the readers, and the scan
    of the whole source finds or refuses what is read from it. -/
theorem scanner_lands_and_reads {source : String} {limit : Nat}
    (hlimit : source.utf8ByteSize < limit) :
    (∀ start, (⟨start⟩ : String.Pos.Raw).IsValid source → ScansSafely source limit start) ∧
      (∀ c, (Cursor.start source).Reaches c → ScansAsRead source limit c) ∧
      (Scan.nodes source limit 0).result? = some (readTemplate source) := by
  refine ⟨fun start hstart => ?_, fun c hc => scansAsRead (within_of_reaches hlimit hc), ?_⟩
  · rcases exists_cursor hstart with ⟨c, hc, rfl⟩
    exact scansSafely (within_of_reaches hlimit hc)
  · have hresult := (follows_nodes (within_of_reaches hlimit (.refl _))).result?_eq
    rwa [fst_nodesAt] at hresult

/-- A source with characters of two bytes, in which the scan goes back behind the name of a filter,
    and across the blank in front of a bare argument. -/
def aside : String := "é\x7ba | f : 'x' , ü |g \x7d"

/-- The nodes of the aside. -/
def asideNodes : List Node :=
  [.text "é" ⟨0, 2⟩,
    .placeholder ⟨["a"], [⟨"f", ["x", "ü"], ⟨5, 20⟩⟩, ⟨"g", [], ⟨20, 22⟩⟩], ⟨2, 24⟩⟩]

theorem scanner_lands_and_reads_aside :
    (aside.utf8ByteSize < 40 ∧ (⟨16⟩ : String.Pos.Raw).IsValid aside ∧
      Scan.argumentsTurn ["x"] aside 40 16 = .found (.last ["x", "ü"]) 20 ∧
      Scan.filterArguments aside 40 22 = .found [] 22) ∧
    ScansSafely aside 40 16 ∧ ScansAsRead aside 40 (.start aside) ∧
    (Scan.nodes aside 40 0).result? = some (.ok asideNodes) := by
  have hlimit : aside.utf8ByteSize < 40 := by decide
  have hvalid : (⟨16⟩ : String.Pos.Raw).IsValid aside := by decide
  have hread : readTemplate aside = .ok asideNodes := by decide +kernel
  rcases scanner_lands_and_reads hlimit with ⟨hsafe, hfollows, hresult⟩
  rw [hread] at hresult
  exact ⟨⟨hlimit, hvalid, by decide +kernel, by decide +kernel⟩, hsafe 16 hvalid,
    hfollows _ (.refl _), hresult⟩

end Letterpress
