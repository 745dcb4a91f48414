import Letterpress.Proofs.Tiling
import Letterpress.Source.Position
import Mathlib.Data.List.DropRight
import Mathlib.Order.Bounds.Basic

/-!
# Positions by Counting

A line and a column are what somebody finds who goes through the source from its beginning and
counts: the lines are one more than the line feeds so far, and the columns one more than the
characters behind the last of them. A table of lines does not count like this. It holds the
offsets at which lines begin, looks up the last of them that is not too far, and counts the
characters between two offsets. The two have to agree for any offset, also for one that lies
beyond the end or inside of a character.

Counting goes character by character, and so does the order of positions. Each character moves
the position on, a line feed to the next line and any other one to the next column, so the
position behind more characters is a later one. With that nothing has to be said about line feeds
when two offsets are compared.

The source is taken apart at the offset, and what is in front of it at the beginning of its last
line. Offsets add up along such parts, and so do the beginnings of lines and the characters
between two offsets; of each part it is plain whether it has any.

## Main definitions

* `Position.behind`: The position behind some characters, found by counting.
* `LineTable.LooksUp`: What is looked up on the way to a position is there.

## Theorems

* `behind_lt_append`: The position behind more characters is a later one.
* `isGreatest_boundaryFrom`: The boundary that an offset is taken for.
* `takeWhile_starts`: The lines that begin at or in front of a boundary.
* `exists_ended`: Characters fall apart into lines that have ended and the last line.
* `countFrom_lastLine`: The characters between the beginning of a line and a boundary.
* `position_eq_behind`: A table of lines finds the position by counting.
* `looksUp_behind`: What it looks up is there.
* `position_monotone`, `position_strictMonoOn`: Positions are in the order of the text.
* `position_counts`: All of it, for every source and every offset.
-/

namespace Letterpress

/-- The position behind some characters, found by counting. -/
def Position.behind (before : List Char) : Position :=
  ⟨1 + before.count '\n', 1 + (before.rtakeWhile (· ≠ '\n')).length⟩

@[simp]
theorem Position.line_behind (cs : List Char) : (behind cs).line = 1 + cs.count '\n' := rfl

@[simp]
theorem Position.column_behind (cs : List Char) :
    (behind cs).column = 1 + (cs.rtakeWhile (· ≠ '\n')).length := rfl

/-- What is looked up on the way to the position of a boundary is there. The lines that begin at or
    in front of the boundary are the first ones of the table, as many as the position says; there
    is a last one among them; and from its beginning to the boundary there is a slice of the
    source, with as many characters as the column says. -/
structure LineTable.LooksUp (index : LineTable) (source : String) (boundary : Nat)
    (p : Position) : Prop where
  divided : ∀ k start, index.starts[k]? = some start → (start ≤ boundary ↔ k < p.line)
  begun : 1 ≤ p.line ∧ ∃ start, index.starts[p.line - 1]? = some start ∧ start ≤ boundary ∧
    (⟨start, boundary⟩ : Span).IsAligned source ∧
    p.column = 1 + ((⟨start, boundary⟩ : Span).slice source).length

theorem Position.le_def {p q : Position} :
    p ≤ q ↔ p.line < q.line ∨ p.line = q.line ∧ p.column ≤ q.column := Iff.rfl

theorem Position.lt_def {p q : Position} :
    p < q ↔ p.line < q.line ∨ p.line = q.line ∧ p.column < q.column := Iff.rfl

instance : PartialOrder Position where
  le_refl p := Or.inr ⟨rfl, Nat.le_refl _⟩
  le_trans p q r hpq hqr := by
    simp only [Position.le_def] at hpq hqr ⊢
    omega
  lt_iff_le_not_ge p q := by
    simp only [Position.le_def, Position.lt_def]
    omega
  le_antisymm p q hpq hqp := by
    obtain ⟨line, column⟩ := p
    obtain ⟨line', column'⟩ := q
    simp only [Position.le_def, Position.mk.injEq] at hpq hqp ⊢
    omega

/-- One more character moves the position on. -/
theorem behind_lt_concat (cs : List Char) (c : Char) :
    Position.behind cs < Position.behind (cs ++ [c]) := by
  simp only [Position.lt_def, Position.line_behind, Position.column_behind, List.count_append]
  by_cases hc : c = '\n'
  · -- The next line is behind this one, whatever the columns are.
    have hone : List.count '\n' [c] = 1 := by rw [hc, List.count_singleton_self]
    omega
  · -- The line is the same, with one more character on it.
    have hnone : List.count '\n' [c] = 0 := List.count_singleton.trans (if_neg (by simpa using hc))
    have hcolumn : (cs ++ [c]).rtakeWhile (· ≠ '\n') = cs.rtakeWhile (· ≠ '\n') ++ [c] :=
      List.rtakeWhile_concat_pos _ _ _ (by simpa using hc)
    rw [hcolumn, List.length_append, List.length_singleton]
    omega

/-- The position behind more characters is a later one. -/
theorem behind_lt_append (cs : List Char) {ds : List Char} (hne : ds ≠ []) :
    Position.behind cs < Position.behind (cs ++ ds) := by
  induction ds generalizing cs with
  | nil => exact absurd rfl hne
  | cons d ds ih =>
      have hstep := behind_lt_concat cs d
      by_cases hlast : ds = []
      · rwa [hlast]
      · have hrest := ih (cs ++ [d]) hlast
        rw [List.append_assoc, List.singleton_append] at hrest
        exact hstep.trans hrest

theorem behind_le_append (cs ds : List Char) :
    Position.behind cs ≤ Position.behind (cs ++ ds) := by
  by_cases hnone : ds = []
  · rw [hnone, List.append_nil]
  · exact (behind_lt_append cs hnone).le

/-- The character boundaries of a source are the ends of its beginnings. -/
theorem isValid_iff {source : String} {k : Nat} : (⟨k⟩ : String.Pos.Raw).IsValid source ↔
    ∃ before after, source.toList = before ++ after ∧ k = byteLength before := by
  constructor
  · intro hvalid
    rcases String.Pos.Raw.isValid_iff_exists_append.mp hvalid with ⟨s, t, hsource, hk⟩
    refine ⟨s.toList, t.toList, by rw [hsource, String.toList_append], ?_⟩
    rw [byteLength_toList]
    exact congrArg String.Pos.Raw.byteIdx hk
  · rintro ⟨before, after, hsource, rfl⟩
    exact isValid_of_append hsource

/-- Of two beginnings of a source one goes on where the other ends, the one that is longer. -/
theorem exists_append_of_byteLength_le {before after before' after' : List Char}
    (hsame : before ++ after = before' ++ after') (hle : byteLength before ≤ byteLength before') :
    ∃ between, before' = before ++ between ∧ after = between ++ after' := by
  rcases List.append_eq_append_iff.mp hsame with ⟨ds, hbefore', hafter⟩ | ⟨ds, hbefore, hafter'⟩
  · exact ⟨ds, hbefore', hafter⟩
  · -- The other way round there is nothing left to go on with.
    have hnone : ds = [] := by
      by_contra hne
      have hpos := byteLength_pos hne
      rw [hbefore, byteLength_append] at hle
      omega
    refine ⟨[], ?_, ?_⟩
    · rw [hbefore, hnone, List.append_nil, List.append_nil]
    · rw [hafter', hnone, List.nil_append, List.nil_append]

/-- A search for a boundary stops in front of the first character that ends beyond the limit. -/
theorem exists_boundaryFrom {limit o : Nat} (cs : List Char) (ho : o ≤ limit) :
    ∃ before after, cs = before ++ after ∧ boundaryFrom limit o cs = o + byteLength before ∧
      o + byteLength before ≤ limit ∧
      ∀ c rest, after = c :: rest → limit < o + byteLength before + c.utf8Size := by
  induction cs generalizing o with
  | nil => exact ⟨[], [], rfl, rfl, ho, fun c rest h => nomatch h⟩
  | cons c cs ih =>
      unfold boundaryFrom
      -- The search goes on only over a character that ends at the limit or before.
      by_cases hnext : o + c.utf8Size ≤ limit
      · rcases ih hnext with ⟨before, after, rfl, hboundary, hle, hstop⟩
        refine ⟨c :: before, after, rfl, ?_, ?_, ?_⟩
        · simp only [if_pos hnext, hboundary, byteLength_cons, Nat.add_assoc]
        · rw [byteLength_cons]
          omega
        · intro d rest hafter
          have hd := hstop d rest hafter
          rw [byteLength_cons]
          omega
      · refine ⟨[], c :: cs, rfl, ?_, ho, ?_⟩
        · simp only [if_neg hnext, byteLength_nil, Nat.add_zero]
        · rintro d rest ⟨⟩
          rw [byteLength_nil]
          omega

/-- An offset is taken for the last boundary that is neither behind it nor behind the end. -/
theorem isGreatest_boundaryFrom (source : String) (offset : Nat) :
    IsGreatest {k | (⟨k⟩ : String.Pos.Raw).IsValid source ∧ k ≤ min offset source.utf8ByteSize}
      (boundaryFrom offset 0 source.toList) := by
  rcases exists_boundaryFrom source.toList (Nat.zero_le offset) with
    ⟨before, after, hsource, hboundary, hle, hstop⟩
  have hlength : source.utf8ByteSize = byteLength before + byteLength after := by
    rw [← byteLength_toList, hsource, byteLength_append]
  rw [hboundary, Nat.zero_add]
  constructor
  · refine ⟨isValid_of_append hsource, ?_⟩
    omega
  · rintro k ⟨hvalid, hk⟩
    rcases isValid_iff.mp hvalid with ⟨before', after', hsource', rfl⟩
    by_contra! hlt
    -- A boundary further on is the end of at least one more character.
    rcases exists_append_of_byteLength_le (hsource.symm.trans hsource') hlt.le with
      ⟨between, hbefore', hafter⟩
    cases between with
    | nil =>
        rw [hbefore', List.append_nil] at hlt
        exact Nat.lt_irrefl _ hlt
    | cons c between =>
        have hbeyond := hstop c _ hafter
        rw [hbefore', byteLength_append, byteLength_cons] at hk
        omega

theorem startsFrom_append (o : Nat) (cs ds : List Char) :
    startsFrom o (cs ++ ds) = startsFrom o cs ++ startsFrom (o + byteLength cs) ds := by
  induction cs generalizing o with
  | nil => rfl
  | cons c cs ih =>
      simp only [List.cons_append, startsFrom, ih, byteLength_cons, Nat.add_assoc]
      by_cases hc : c = '\n'
      · rw [if_pos hc, if_pos hc, List.cons_append]
      · rw [if_neg hc, if_neg hc]

theorem length_startsFrom (o : Nat) (cs : List Char) :
    (startsFrom o cs).length = cs.count '\n' := by
  induction cs generalizing o with
  | nil => rfl
  | cons c cs ih =>
      unfold startsFrom
      by_cases hc : c = '\n'
      · rw [if_pos hc, List.length_cons, ih, hc, List.count_cons_self]
      · rw [if_neg hc, ih, List.count_cons_of_ne hc]

/-- Lines begin behind characters, and not behind the last one of them. -/
theorem bounds_of_mem_startsFrom {o start : Nat} {cs : List Char}
    (h : start ∈ startsFrom o cs) : o < start ∧ start ≤ o + byteLength cs := by
  induction cs generalizing o with
  | nil => cases h
  | cons c cs ih =>
      have hc := c.utf8Size_pos
      have hlater : start ∈ startsFrom (o + c.utf8Size) cs →
          o < start ∧ start ≤ o + byteLength (c :: cs) := by
        intro hmem
        have hbounds := ih hmem
        rw [byteLength_cons]
        omega
      unfold startsFrom at h
      by_cases hfeed : c = '\n'
      · rw [if_pos hfeed] at h
        rcases List.mem_cons.mp h with hstart | h
        · rw [byteLength_cons]
          omega
        · exact hlater h
      · rw [if_neg hfeed] at h
        exact hlater h

/-- The lines that begin at or in front of a boundary are those of the characters in front of
    it. -/
theorem takeWhile_starts (before after : List Char) :
    (0 :: startsFrom 0 (before ++ after)).takeWhile (· ≤ byteLength before) =
      0 :: startsFrom 0 before := by
  have hfront : ∀ start ∈ 0 :: startsFrom 0 before, decide (start ≤ byteLength before) = true := by
    intro start hstart
    rcases List.mem_cons.mp hstart with rfl | hstart
    · exact decide_eq_true (Nat.zero_le _)
    · have hbounds := bounds_of_mem_startsFrom hstart
      exact decide_eq_true (by omega)
  -- A line that begins further on begins behind a line feed, and not at the boundary.
  have hbehind : (startsFrom (byteLength before) after).takeWhile (· ≤ byteLength before) = [] := by
    refine List.takeWhile_eq_nil_iff.mpr fun hpos => ?_
    have hbounds := bounds_of_mem_startsFrom (List.getElem_mem hpos)
    simp only [List.get_eq_getElem, decide_eq_true_eq]
    omega
  rw [startsFrom_append, Nat.zero_add, ← List.cons_append, List.takeWhile_append_of_pos hfront,
    hbehind, List.append_nil]

theorem countFrom_append (low high o : Nat) (cs ds : List Char) :
    countFrom low high o (cs ++ ds) =
      countFrom low high o cs + countFrom low high (o + byteLength cs) ds := by
  induction cs generalizing o with
  | nil => simp only [List.nil_append, countFrom, byteLength_nil, Nat.zero_add, Nat.add_zero]
  | cons c cs ih =>
      simp only [List.cons_append, countFrom, ih, byteLength_cons, Nat.add_assoc]
      by_cases hbetween : low ≤ o ∧ o < high
      · rw [if_pos hbetween, if_pos hbetween]
        omega
      · rw [if_neg hbetween, if_neg hbetween]

theorem countFrom_of_le_low {low high o : Nat} {cs : List Char} (h : o + byteLength cs ≤ low) :
    countFrom low high o cs = 0 := by
  induction cs generalizing o with
  | nil => rfl
  | cons c cs ih =>
      have hc := c.utf8Size_pos
      rw [byteLength_cons] at h
      unfold countFrom
      rw [if_neg (by omega)]
      exact ih (by omega)

theorem countFrom_of_high_le {low high o : Nat} {cs : List Char} (h : high ≤ o) :
    countFrom low high o cs = 0 := by
  induction cs generalizing o with
  | nil => rfl
  | cons c cs ih =>
      unfold countFrom
      rw [if_neg (by omega)]
      exact ih (by omega)

theorem countFrom_of_between {low high o : Nat} {cs : List Char} (hlow : low ≤ o)
    (hhigh : o + byteLength cs ≤ high) : countFrom low high o cs = cs.length := by
  induction cs generalizing o with
  | nil => rfl
  | cons c cs ih =>
      have hc := c.utf8Size_pos
      rw [byteLength_cons] at hhigh
      have hrest : countFrom low high (o + c.utf8Size) cs = cs.length :=
        ih (by omega) (by omega)
      unfold countFrom
      rw [if_pos (by omega), hrest, List.length_cons]

/-- There is no line feed in the last line. -/
theorem not_mem_lastLine (cs : List Char) : '\n' ∉ cs.rtakeWhile (· ≠ '\n') := by
  intro hfeed
  have hne := List.mem_takeWhile_imp (List.mem_reverse.mp hfeed)
  simp at hne

/-- Characters fall apart into lines that have ended, each with a line feed, and the last line. -/
theorem exists_ended (cs : List Char) :
    ∃ ended, cs = ended ++ cs.rtakeWhile (· ≠ '\n') ∧
      (ended = [] ∨ ∃ front, ended = front ++ ['\n']) := by
  refine ⟨cs.rdropWhile (· ≠ '\n'), List.rdropWhile_append_rtakeWhile.symm, ?_⟩
  by_cases hnone : cs.rdropWhile (· ≠ '\n') = []
  · exact Or.inl hnone
  · have hfeed : (cs.rdropWhile (· ≠ '\n')).getLast hnone = '\n' := by
      simpa using List.rdropWhile_last_not _ _ hnone
    have hconcat := List.dropLast_append_getLast hnone
    rw [hfeed] at hconcat
    exact Or.inr ⟨_, hconcat.symm⟩

/-- The last line begins behind those that have ended. -/
theorem getLast?_starts {ended line : List Char}
    (hended : ended = [] ∨ ∃ front, ended = front ++ ['\n']) (hline : '\n' ∉ line) :
    (0 :: startsFrom 0 (ended ++ line)).getLast? = some (byteLength ended) := by
  have hnone : startsFrom (byteLength ended) line = [] := by
    rw [← List.length_eq_zero_iff, length_startsFrom, List.count_eq_zero]
    exact hline
  rw [startsFrom_append, Nat.zero_add, hnone, List.append_nil]
  rcases hended with rfl | ⟨front, rfl⟩
  · rfl
  · rw [startsFrom_append, ← List.cons_append]
    simp only [startsFrom, if_true, List.getLast?_concat, byteLength_append, byteLength_cons,
      byteLength_nil, Nat.zero_add, Nat.add_zero]

/-- Between the beginning of the last line and a boundary there are the characters of the line. -/
theorem countFrom_lastLine {ended line : List Char} (after : List Char) :
    countFrom (byteLength ended) (byteLength (ended ++ line)) 0 (ended ++ line ++ after) =
      line.length := by
  rw [countFrom_append, countFrom_append, countFrom_of_le_low (by omega),
    countFrom_of_between (by omega) (by rw [byteLength_append]; omega),
    countFrom_of_high_le (by omega), Nat.zero_add, Nat.add_zero]

section

variable {source : String} {before after : List Char}

theorem starts_ofSource (hsource : source.toList = before ++ after) :
    (LineTable.ofSource source).starts =
      (0 :: startsFrom 0 before) ++ startsFrom (byteLength before) after := by
  unfold LineTable.ofSource
  rw [hsource, startsFrom_append, Nat.zero_add, List.cons_append]

theorem size_ofSource (source : String) :
    (LineTable.ofSource source).size = 1 + source.toList.count '\n' := by
  unfold LineTable.size LineTable.ofSource
  rw [List.length_cons, length_startsFrom, Nat.add_comm]

/-- A table of lines finds the position by counting. -/
theorem position_eq_behind {offset : Nat} (hsource : source.toList = before ++ after)
    (hboundary : boundaryFrom offset 0 source.toList = byteLength before) :
    (LineTable.ofSource source).position offset = Position.behind before := by
  rcases exists_ended before with ⟨ended, hbefore, hended⟩
  have hlast := getLast?_starts hended (not_mem_lastLine before)
  rw [← hbefore] at hlast
  have hstarts : (LineTable.ofSource source).starts.takeWhile (· ≤ byteLength before) =
      0 :: startsFrom 0 before := by
    rw [LineTable.ofSource, hsource, takeWhile_starts]
  have hcount : countFrom (byteLength ended) (byteLength before) 0 source.toList =
      (before.rtakeWhile (· ≠ '\n')).length := by
    rw [hsource]
    conv_lhs => rw [hbefore]
    exact countFrom_lastLine after
  have hchars : (LineTable.ofSource source).chars = source.toList := rfl
  unfold LineTable.position Position.behind
  rw [hchars, hboundary]
  simp only [hstarts, List.getLastD_eq_getLast?, hlast, Option.getD_some, hcount, List.length_cons,
    length_startsFrom, Nat.add_comm]

/-- What the table looks up for a boundary is there. -/
theorem looksUp_behind (hsource : source.toList = before ++ after) :
    (LineTable.ofSource source).LooksUp source (byteLength before) (.behind before) := by
  have hline : (Position.behind before).line = (0 :: startsFrom 0 before).length := by
    rw [Position.line_behind, List.length_cons, length_startsFrom, Nat.add_comm]
  constructor
  case divided =>
    intro k start hstart
    rw [starts_ofSource hsource] at hstart
    rw [hline]
    -- The entry is one of those in front of the boundary, or one of those behind it.
    by_cases hk : k < (0 :: startsFrom 0 before).length
    · rw [List.getElem?_append_left hk] at hstart
      rcases List.mem_cons.mp (List.mem_of_getElem? hstart) with rfl | hmem
      · exact iff_of_true (Nat.zero_le _) hk
      · have hbounds := bounds_of_mem_startsFrom hmem
        simp only [hk, iff_true]
        omega
    · rw [List.getElem?_append_right (Nat.le_of_not_lt hk)] at hstart
      have hbounds := bounds_of_mem_startsFrom (List.mem_of_getElem? hstart)
      omega
  case begun =>
    rcases exists_ended before with ⟨ended, hbefore, hended⟩
    have hlast := getLast?_starts hended (not_mem_lastLine before)
    rw [← hbefore] at hlast
    have hcut : StandsIn source ended (before.rtakeWhile (· ≠ '\n'))
        ⟨byteLength ended, byteLength before⟩ := by
      rw [StandsIn, ← hbefore]
      exact ⟨⟨after, hsource⟩, rfl⟩
    have hlength : 1 ≤ (Position.behind before).line := by
      rw [hline, List.length_cons]
      omega
    refine ⟨hlength, byteLength ended, ?_, ?_, hcut.isAligned, ?_⟩
    · rw [starts_ofSource hsource, hline, List.getElem?_append_left (by simp), ← hlast,
        List.getLast?_eq_getElem?]
    · rw [hbefore, byteLength_append]
      omega
    · rw [hcut.slice_eq, String.length_ofList]
      rfl

end

/-- Every offset has the position of a boundary, which is found by counting. -/
theorem exists_position_eq (source : String) (offset : Nat) :
    ∃ before after, source.toList = before ++ after ∧
      boundaryFrom offset 0 source.toList = byteLength before ∧
      (LineTable.ofSource source).position offset = .behind before := by
  rcases exists_boundaryFrom source.toList (Nat.zero_le offset) with
    ⟨before, after, hsource, hboundary, _⟩
  rw [Nat.zero_add] at hboundary
  exact ⟨before, after, hsource, hboundary, position_eq_behind hsource hboundary⟩

/-- The position of a boundary is the one behind the characters in front of it. -/
theorem position_of_boundary {source : String} {before after : List Char}
    (hsource : source.toList = before ++ after) :
    (LineTable.ofSource source).position (byteLength before) = .behind before := by
  refine position_eq_behind hsource ?_
  -- Of all boundaries that are not behind this one, it is itself the last.
  have hbyte : byteLength before ≤ source.utf8ByteSize := by
    rw [← byteLength_toList, hsource, byteLength_append]
    omega
  have hgreatest := isGreatest_boundaryFrom source (byteLength before)
  refine Nat.le_antisymm ?_ (hgreatest.2 ⟨isValid_of_append hsource, ?_⟩)
  · exact hgreatest.1.2.trans (Nat.min_le_left _ _)
  · exact Nat.le_min.mpr ⟨Nat.le_refl _, hbyte⟩

/-- A line that an offset lies in is a line of the source. -/
theorem line_le_size (source : String) (offset : Nat) :
    ((LineTable.ofSource source).position offset).line ≤ (LineTable.ofSource source).size := by
  rcases exists_position_eq source offset with ⟨before, after, hsource, _, hposition⟩
  rw [hposition, size_ofSource, hsource, List.count_append, Position.line_behind]
  omega

theorem position_monotone (source : String) : Monotone (LineTable.ofSource source).position := by
  intro offset offset' hle
  rcases exists_position_eq source offset with ⟨before, after, hsource, hboundary, hposition⟩
  rcases exists_position_eq source offset' with
    ⟨before', after', hsource', hboundary', hposition'⟩
  -- What one offset may be taken for, a later one may be taken for as well.
  have hboundaries : byteLength before ≤ byteLength before' := by
    have hgreatest := isGreatest_boundaryFrom source offset
    have hgreatest' := isGreatest_boundaryFrom source offset'
    rw [hboundary] at hgreatest
    rw [hboundary'] at hgreatest'
    refine hgreatest'.2 ⟨hgreatest.1.1, hgreatest.1.2.trans ?_⟩
    omega
  rcases exists_append_of_byteLength_le (hsource.symm.trans hsource') hboundaries with
    ⟨between, hbefore', _⟩
  rw [hposition, hposition', hbefore']
  exact behind_le_append before between

theorem position_strictMonoOn (source : String) :
    StrictMonoOn (LineTable.ofSource source).position
      {k | (⟨k⟩ : String.Pos.Raw).IsValid source} := by
  intro k hk k' hk' hlt
  rcases isValid_iff.mp hk with ⟨before, after, hsource, rfl⟩
  rcases isValid_iff.mp hk' with ⟨before', after', hsource', rfl⟩
  rcases exists_append_of_byteLength_le (hsource.symm.trans hsource') hlt.le with
    ⟨between, hbefore', _⟩
  have hne : between ≠ [] := by
    rintro rfl
    rw [hbefore', List.append_nil] at hlt
    exact Nat.lt_irrefl _ hlt
  rw [position_of_boundary hsource, position_of_boundary hsource', hbefore']
  exact behind_lt_append before hne

/-- Positions are found by counting, and are in the order of the text. An offset is taken for the
    last character boundary that is neither behind it nor behind the end of the source. The line is
    one more than the line feeds in front of this boundary, and the column one more than the
    characters between the last of these and the boundary; whatever is looked up on the way is
    there. No line is beyond the last one. A later offset never has an earlier position, and of two
    boundaries the later one has the later position. -/
theorem position_counts (source : String) :
    (∀ offset, ∃ o, IsGreatest
        {k | (⟨k⟩ : String.Pos.Raw).IsValid source ∧ k ≤ min offset source.utf8ByteSize} o ∧
      (LineTable.ofSource source).position offset =
        .behind ((⟨0, o⟩ : Span).slice source).toList ∧
      (LineTable.ofSource source).LooksUp source o
        ((LineTable.ofSource source).position offset)) ∧
    (∀ offset,
      ((LineTable.ofSource source).position offset).line ≤ (LineTable.ofSource source).size) ∧
    Monotone (LineTable.ofSource source).position ∧
    StrictMonoOn (LineTable.ofSource source).position
      {k | (⟨k⟩ : String.Pos.Raw).IsValid source} := by
  refine ⟨fun offset => ?_, line_le_size source, position_monotone source,
    position_strictMonoOn source⟩
  rcases exists_position_eq source offset with ⟨before, after, hsource, hboundary, hposition⟩
  have hcut : StandsIn source [] before ⟨0, byteLength before⟩ := ⟨⟨after, hsource⟩, rfl⟩
  refine ⟨byteLength before, hboundary ▸ isGreatest_boundaryFrom source offset, ?_, ?_⟩
  · rw [hposition, hcut.slice_eq, String.toList_ofList]
  · rw [hposition]
    exact looksUp_behind hsource

/-- The second byte of a character of two, behind a line feed. -/
example : (LineTable.ofSource "a\nbü").position 4 = ⟨2, 2⟩ := by decide +kernel

end Letterpress
