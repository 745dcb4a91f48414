import Letterpress.Proofs.Positions
import Letterpress.Source.Excerpt

/-!
# Excerpts Show the Right Lines

An excerpt is made from a position and from the lines of a source, and these come from two
different ideas of a line. The position knows byte offsets, where a line begins behind a line feed.
The excerpt splits the source at its line feeds and counts the pieces. That the line in question
is there at all, and is the one that the offset lies in, needs both of them: there is one piece
more than there are line feeds, and the characters in front of the offset end in the piece that
has as many pieces in front of it as they have line feeds. What they have in this piece is a
beginning of it, so the caret is never behind its end by more than one character.

The rest is about the text. The lines around a position are a section of the numbered lines of
the source, and their numbers all fit into the width of the last one. None of what is shown has a
line feed in it, so the excerpt is read back, line by line, as what was put into it.

## Main definitions

* `numberedLines`: The lines of a source with their numbers.
* `Surroundings`: The lines around a position.
* `Surroundings.rows`: What an excerpt shows of them.
* `Surroundings.AreShown`: That an excerpt shows just this.

## Theorems

* `length_splitOn`: There is one line more than there are line feeds.
* `exists_line_of_prefix`: The line in which some characters of a source end.
* `exists_surroundings`: Every offset has lines around it.
* `filter_isShown`: The lines of an excerpt are a section of the numbered lines.
* `excerptLines_eq`: An excerpt shows the lines around a position.
* `length_number`: All numbers in an excerpt have the same width.
* `sourceLines_join`: Lines that are put together can be told apart again.
* `excerpt_quotes`: All of it, for every source and every offset.
-/

namespace Letterpress

/-- The lines of a source with their numbers, which begin with one. -/
def numberedLines (source : String) : List (String × Nat) := (sourceLines source).zipIdx 1

/-- The number of the last line in an excerpt. The source may end before. -/
def lastShown (source : String) (p : Position) : Nat :=
  min (p.line + 1) (sourceLines source).length

/-- An excerpt holds the lines from two above the position to one below it. -/
def isShown (source : String) (p : Position) (line : String × Nat) : Bool :=
  max 1 (p.line - 2) ≤ line.2 && line.2 ≤ lastShown source p

/-- A line as an excerpt shows it, behind a mark and its number. -/
def shownLine (width : Nat) (mark : String) (line : String × Nat) : String :=
  "  " ++ mark ++ " " ++ rightAligned width (toString line.2) ++ " | " ++ line.1

/-- The line with the caret, which stands behind some blanks. -/
def caretLine (width blanks : Nat) : String :=
  "    " ++ rightAligned width "" ++ " | " ++ String.ofList (List.replicate blanks ' ') ++ "^"

/-- The lines around a position: the line in question, what comes before it from two lines above
    on, and what comes behind it as far as one line below. The line in question has as many
    characters as there are columns in front of the position. -/
structure Surroundings (source : String) (p : Position) where
  above : List (String × Nat)
  line : String
  below : List (String × Nat)
  quoted : (numberedLines source).filter (isShown source p) = above ++ (line, p.line) :: below
  before : ∀ l ∈ above, l.2 < p.line
  behind : ∀ l ∈ below, p.line < l.2
  room : p.column - 1 ≤ line.length

namespace Surroundings

variable {source : String} {p : Position} (s : Surroundings source p)

/-- All lines around a position, in the order of the source. -/
def lines : List (String × Nat) := s.above ++ (s.line, p.line) :: s.below

/-- The width of all numbers is that of the last one. -/
def width (_ : Surroundings source p) : Nat := (toString (lastShown source p)).length

/-- What an excerpt shows: the line in question with a mark and with the caret below it, and the
    others without a mark. -/
def rows : List String :=
  s.above.map (shownLine s.width " ") ++
    shownLine s.width ">" (s.line, p.line) :: caretLine s.width (p.column - 1) ::
      s.below.map (shownLine s.width " ")

end Surroundings

/-- What an excerpt for a position makes of the lines around it. It shows all from the first one to
    the last one, with their numbers set to one width; its lines can be read back from the text; and
    they stand between what is said in front of them and behind them. -/
structure Surroundings.AreShown {source : String} {p : Position}
    (s : Surroundings source p) : Prop where
  numbered : s.lines.map (·.2) =
    List.range' (max 1 (p.line - 2)) (lastShown source p + 1 - max 1 (p.line - 2))
  aligned : ∀ l ∈ s.lines, (rightAligned s.width (toString l.2)).length = s.width
  again : sourceLines (excerptLines source p) = s.rows ++ [""]
  framed : ∀ kind message hint, excerpt kind p message hint source =
    kind ++ s!"\n  --> {p.line}:{p.column}\n\n" ++ String.join (s.rows.map (· ++ "\n")) ++
      "  error: " ++ message ++ (hint.elim "" fun h => "\n  hint: " ++ h)

/-- There is one line more than there are line feeds. -/
theorem length_splitOn (cs : List Char) : (cs.splitOn '\n').length = cs.count '\n' + 1 := by
  induction cs with
  | nil => rfl
  | cons c cs ih =>
      rw [List.splitOn_cons_eq_if_modifyHead]
      by_cases hc : c = '\n'
      · rw [if_pos (beq_iff_eq.mpr hc), List.length_cons, ih, hc, List.count_cons_self]
      · rw [if_neg (fun h => hc (beq_iff_eq.mp h)), List.length_modifyHead, ih,
          List.count_cons_of_ne hc]

theorem not_mem_of_mem_splitOn {cs line : List Char} (h : line ∈ cs.splitOn '\n') :
    '\n' ∉ line := by
  induction cs generalizing line with
  | nil =>
      rw [List.splitOn_nil, List.mem_singleton] at h
      rw [h]
      exact List.not_mem_nil
  | cons c cs ih =>
      rw [List.splitOn_cons_eq_if_modifyHead] at h
      by_cases hc : c = '\n'
      · rw [if_pos (beq_iff_eq.mpr hc)] at h
        rcases List.mem_cons.mp h with rfl | h
        · exact List.not_mem_nil
        · exact ih h
      · rw [if_neg (fun h => hc (beq_iff_eq.mp h))] at h
        -- The character goes into the first line of what is behind it.
        cases hrest : cs.splitOn '\n' with
        | nil => exact absurd hrest (List.splitOn_ne_nil _ _)
        | cons first others =>
            rw [hrest, List.modifyHead_cons] at h
            rcases List.mem_cons.mp h with rfl | h
            · have hfirst := ih (hrest ▸ List.mem_cons_self)
              exact List.not_mem_cons_of_ne_of_not_mem (Ne.symm hc) hfirst
            · exact ih (hrest ▸ List.mem_cons_of_mem _ h)

/-- Characters without a line feed belong to the line that begins behind them. -/
theorem splitOn_append_of_not_mem {cs : List Char} (h : '\n' ∉ cs) (ds : List Char) :
    (cs ++ ds).splitOn '\n' = (ds.splitOn '\n').modifyHead (cs ++ ·) := by
  induction cs with
  | nil =>
      cases hds : ds.splitOn '\n' with
      | nil => exact absurd hds (List.splitOn_ne_nil _ _)
      | cons first others => simp only [List.nil_append, hds, List.modifyHead_cons]
  | cons c cs ih =>
      have hc : c ≠ '\n' := fun hc => h (hc ▸ List.mem_cons_self)
      have hcs : '\n' ∉ cs := fun hcs => h (List.mem_cons_of_mem _ hcs)
      rw [List.cons_append, List.splitOn_cons_eq_if_modifyHead,
        if_neg (fun h => hc (beq_iff_eq.mp h)), ih hcs, List.modifyHead_modifyHead]
      rfl

/-- The line in which some characters of a source end has as many lines in front of it as there are
    line feeds among them, and begins with the last of them. -/
theorem exists_line_of_prefix {source : String} {before after : List Char}
    (hsource : source.toList = before ++ after) :
    ∃ earlier line later, sourceLines source = earlier ++ line :: later ∧
      earlier.length = before.count '\n' ∧
      (before.rtakeWhile (· ≠ '\n')).length ≤ line.length := by
  rcases exists_ended before with ⟨ended, hbefore, hended⟩
  have hline := not_mem_lastLine before
  -- What has ended makes lines of its own.
  have hsplit : ∃ earlier : List (List Char), earlier.length = ended.count '\n' ∧
      ∀ rest, (ended ++ rest).splitOn '\n' = earlier ++ rest.splitOn '\n' := by
    rcases hended with rfl | ⟨front, rfl⟩
    · exact ⟨[], rfl, fun rest => rfl⟩
    · refine ⟨front.splitOn '\n', ?_, fun rest => ?_⟩
      · rw [length_splitOn, List.count_append, List.count_singleton_self]
      · rw [List.append_assoc, List.singleton_append]
        exact List.splitOnP_append_cons _ _ rfl
  rcases hsplit with ⟨earlier, hlength, hsplit⟩
  have hlines : source.toList.splitOn '\n' =
      earlier ++ (after.splitOn '\n').modifyHead (before.rtakeWhile (· ≠ '\n') ++ ·) := by
    rw [hsource]
    conv_lhs => rw [hbefore]
    rw [List.append_assoc, hsplit, splitOn_append_of_not_mem hline]
  cases hafter : after.splitOn '\n' with
  | nil => exact absurd hafter (List.splitOn_ne_nil _ _)
  | cons first others =>
      rw [hafter, List.modifyHead_cons] at hlines
      refine ⟨earlier.map String.ofList, String.ofList (before.rtakeWhile (· ≠ '\n') ++ first),
        others.map String.ofList, ?_, ?_, ?_⟩
      · rw [sourceLines, hlines, List.map_append, List.map_cons]
      · have hcount : before.count '\n' = ended.count '\n' := by
          conv_lhs => rw [hbefore]
          rw [List.count_append, List.count_eq_zero.mpr hline, Nat.add_zero]
        rw [List.length_map, hlength, hcount]
      · rw [String.length_ofList, List.length_append]
        omega

/-- Every offset has lines around it, and lies in one of them. -/
theorem exists_surroundings (source : String) (offset : Nat) :
    Nonempty (Surroundings source ((LineTable.ofSource source).position offset)) := by
  rcases exists_position_eq source offset with ⟨before, after, hsource, _, hposition⟩
  rcases exists_line_of_prefix hsource with ⟨earlier, line, later, hlines, hearlier, hroom⟩
  rw [hposition]
  have hnumber : (Position.behind before).line = 1 + earlier.length := by
    rw [Position.line_behind, hearlier]
  have hnumbered : numberedLines source = earlier.zipIdx 1 ++
      (line, (Position.behind before).line) ::
        later.zipIdx ((Position.behind before).line + 1) := by
    rw [numberedLines, hlines, List.zipIdx_append, List.zipIdx_cons, hnumber]
  -- The line in question is neither too far up nor too far down, nor behind the last one.
  have hshown :
      isShown source (.behind before) (line, (Position.behind before).line) = true := by
    rw [isShown, lastShown, hlines, List.length_append, List.length_cons, Bool.and_eq_true,
      decide_eq_true_iff, decide_eq_true_iff]
    omega
  constructor
  constructor
  case quoted =>
    rw [hnumbered, List.filter_append, List.filter_cons_of_pos hshown]
  case before =>
    intro l hl
    have hbound := List.snd_lt_of_mem_zipIdx (List.mem_of_mem_filter hl)
    omega
  case behind =>
    intro l hl
    have hbound := List.le_snd_of_mem_zipIdx (List.mem_of_mem_filter hl)
    omega
  case room =>
    rw [Position.column_behind]
    omega

/-- The numbers from zero that lie between two of them. -/
theorem filter_range (n first last : Nat) :
    (List.range n).filter (fun i => first ≤ i && i < last) =
      List.range' first (min n last - first) := by
  induction n with
  | zero => rw [List.range_zero, List.filter_nil, Nat.zero_min, Nat.zero_sub, List.range'_zero]
  | succ n ih =>
      rw [List.range_succ, List.filter_append, ih, List.filter_singleton]
      -- The new number is behind all that have been kept, so it can only make them one more.
      by_cases hn : first ≤ n ∧ n < last
      · have hlength : min (n + 1) last - first = min n last - first + 1 := by omega
        have hnext : first + (min n last - first) = n := by omega
        simp only [hn.1, hn.2, decide_true, Bool.and_self, cond_true]
        rw [hlength, List.range'_1_concat, hnext]
      · have hlength : min (n + 1) last - first = min n last - first := by omega
        have hout : (decide (first ≤ n) && decide (n < last)) = false := by simpa using hn
        rw [hout, cond_false, List.append_nil, hlength]

/-- The lines that an excerpt holds are those from one number up to another. -/
theorem filter_isShown (source : String) {p : Position} (hline : 1 ≤ p.line) :
    (numberedLines source).filter (isShown source p) =
      (List.range' (p.line - 3) (lastShown source p - (p.line - 3))).map
        fun i => ((sourceLines source).getD i "", i + 1) := by
  have hnumbered : numberedLines source = (List.range (sourceLines source).length).map
      fun i => ((sourceLines source).getD i "", i + 1) := by
    refine List.ext_getElem (by simp [numberedLines]) fun i hi _ => ?_
    have hbound : i < (sourceLines source).length := by simpa [numberedLines] using hi
    simp [numberedLines, hbound, Nat.add_comm]
  have hlast : min (sourceLines source).length (lastShown source p) = lastShown source p :=
    Nat.min_eq_right (Nat.min_le_right _ _)
  have hsection := filter_range (sourceLines source).length (p.line - 3) (lastShown source p)
  rw [hlast] at hsection
  rw [hnumbered, List.filter_map, ← hsection]
  refine congrArg _ (List.filter_congr fun i _ => ?_)
  simp only [Function.comp_apply, isShown, Bool.and_eq_decide, decide_eq_decide]
  simp only [decide_eq_true_eq]
  omega

theorem excerptLine_of_ne {p : Position} {width number : Nat} (hne : number ≠ p.line)
    (line : String) :
    excerptLine width p number line = shownLine width " " (line, number) ++ "\n" := by
  have hother : (number == p.line) = false := beq_eq_false_iff_ne.mpr hne
  simp only [excerptLine, hother, Bool.false_eq_true, if_false, shownLine]

theorem excerptLine_self (width : Nat) (p : Position) (line : String) :
    excerptLine width p p.line line =
      shownLine width ">" (line, p.line) ++ "\n" ++
        (caretLine width (p.column - 1) ++ "\n") := by
  have hcaret : "^\n" = "^" ++ "\n" := rfl
  simp only [excerptLine, beq_self_eq_true, if_true, shownLine, caretLine, hcaret,
    String.append_assoc]

/-- An excerpt is made of the numbered lines that it holds. None of them has to be made up. -/
theorem excerptLines_eq_join (source : String) {p : Position} (hline : 1 ≤ p.line) :
    excerptLines source p = String.join (((numberedLines source).filter (isShown source p)).map
      fun l => excerptLine (toString (lastShown source p)).length p l.2 l.1) := by
  have hnumbers : ∀ n, (List.range n).map (· + (p.line - 3)) = List.range' (p.line - 3) n := by
    intro n
    simp only [List.range'_eq_map_range, Nat.add_comm]
  rw [excerptLines, hnumbers, filter_isShown source hline, List.map_map]
  rfl

/-- The line in question is a line of the source. -/
theorem Surroundings.line_bounds {source : String} {p : Position} (s : Surroundings source p) :
    1 ≤ p.line ∧ p.line ≤ (sourceLines source).length := by
  have hmem : (s.line, p.line) ∈ (numberedLines source).filter (isShown source p) :=
    s.quoted ▸ List.mem_append_right _ List.mem_cons_self
  have hnumbered := List.mem_of_mem_filter hmem
  have hlow := List.le_snd_of_mem_zipIdx hnumbered
  have hhigh := List.snd_lt_of_mem_zipIdx hnumbered
  omega

/-- An excerpt shows the lines around a position. -/
theorem excerptLines_eq {source : String} {p : Position} (s : Surroundings source p) :
    excerptLines source p = String.join (s.rows.map (· ++ "\n")) := by
  have hothers : ∀ ls : List (String × Nat), (∀ l ∈ ls, l.2 ≠ p.line) →
      ls.map (fun l => excerptLine s.width p l.2 l.1) =
        (ls.map (shownLine s.width " ")).map (· ++ "\n") := by
    intro ls hne
    rw [List.map_map]
    exact List.map_congr_left fun l hl => excerptLine_of_ne (hne l hl) l.1
  have habove := hothers s.above fun l hl => Nat.ne_of_lt (s.before l hl)
  have hbelow := hothers s.below fun l hl => Nat.ne_of_gt (s.behind l hl)
  have hwidth : (toString (lastShown source p)).length = s.width := rfl
  rw [excerptLines_eq_join source s.line_bounds.1, s.quoted, List.map_append, List.map_cons,
    hwidth, habove, hbelow]
  simp only [Surroundings.rows, List.map_append, List.map_cons, String.join_append,
    String.join_cons, excerptLine_self, String.append_assoc]

/-- A smaller number does not have more digits. -/
theorem length_toString_le {m n : Nat} (h : m ≤ n) :
    (toString m).length ≤ (toString n).length := by
  simp only [Nat.toString_eq_repr]
  have hpos : 0 < n.repr.length := by
    rw [← String.length_toList, Nat.toList_repr]
    exact List.length_pos_iff.mpr Nat.toDigits_ne_nil
  have hn := (Nat.length_repr_le_iff hpos).mp (Nat.le_refl _)
  exact (Nat.length_repr_le_iff hpos).mpr (Nat.lt_of_le_of_lt h hn)

theorem length_rightAligned {width : Nat} {s : String} (h : s.length ≤ width) :
    (rightAligned width s).length = width := by
  rw [rightAligned, String.length_append, String.length_ofList, List.length_replicate]
  omega

theorem not_mem_toDigits (n : Nat) : '\n' ∉ Nat.toDigits 10 n := by
  intro hfeed
  have hdigit := Nat.isDigit_of_mem_toDigits (by decide) (by decide) hfeed
  exact absurd hdigit (by decide)

/-- Lines that are put together, each with a line feed behind it, can be told apart again. Behind
    the last one there is an empty line. -/
theorem sourceLines_join {rows : List String} (h : ∀ row ∈ rows, '\n' ∉ row.toList) :
    sourceLines (String.join (rows.map (· ++ "\n"))) = rows ++ [""] := by
  induction rows with
  | nil => rfl
  | cons row rows ih =>
      rcases List.forall_mem_cons.mp h with ⟨hrow, hrows⟩
      have hrest := ih hrows
      have hchars : (String.join ((row :: rows).map (· ++ "\n"))).toList =
          row.toList ++ '\n' :: (String.join (rows.map (· ++ "\n"))).toList := by
        rw [List.map_cons, String.join_cons, String.toList_append, String.toList_append,
          List.append_assoc]
        rfl
      unfold sourceLines at hrest ⊢
      rw [hchars, List.splitOn_append_cons_self_of_not_mem hrow, List.map_cons, hrest,
        String.ofList_toList, List.cons_append]

theorem not_mem_shownLine {width : Nat} {mark : String} {l : String × Nat}
    (hmark : '\n' ∉ mark.toList) (hline : '\n' ∉ l.1.toList) :
    '\n' ∉ (shownLine width mark l).toList := by
  simp [shownLine, rightAligned, hmark, hline, not_mem_toDigits]

/-- Nothing that an excerpt shows has a line feed in it. -/
theorem not_mem_rows {source : String} {p : Position} (s : Surroundings source p) :
    ∀ row ∈ s.rows, '\n' ∉ row.toList := by
  -- Where a source is split there is no line feed left.
  have hlines : ∀ l ∈ s.lines, '\n' ∉ l.1.toList := by
    intro l hl
    rw [Surroundings.lines, ← s.quoted] at hl
    have hmem := List.fst_mem_of_mem_zipIdx (List.mem_of_mem_filter hl)
    rcases List.mem_map.mp hmem with ⟨cs, hcs, hl⟩
    rw [← hl, String.toList_ofList]
    exact not_mem_of_mem_splitOn hcs
  rcases List.forall_mem_append.mp hlines with ⟨habove, hfrom⟩
  rcases List.forall_mem_cons.mp hfrom with ⟨hline, hbelow⟩
  have hcaret : '\n' ∉ (caretLine s.width (p.column - 1)).toList := by
    simp [caretLine, rightAligned]
  refine List.forall_mem_append.mpr ⟨?_, List.forall_mem_cons.mpr
    ⟨not_mem_shownLine (by decide) hline, List.forall_mem_cons.mpr ⟨hcaret, ?_⟩⟩⟩
  · exact List.forall_mem_map.mpr fun l hl => not_mem_shownLine (by decide) (habove l hl)
  · exact List.forall_mem_map.mpr fun l hl => not_mem_shownLine (by decide) (hbelow l hl)

section

variable {source : String} {p : Position} (s : Surroundings source p)

/-- All numbers are set to one width. -/
theorem length_number : ∀ l ∈ s.lines, (rightAligned s.width (toString l.2)).length = s.width := by
  intro l hl
  rw [Surroundings.lines, ← s.quoted] at hl
  have hshown := (Bool.and_eq_true_iff.mp (List.mem_filter.mp hl).2).2
  exact length_rightAligned (length_toString_le (of_decide_eq_true hshown))

/-- No line is left out between the first one and the last one. -/
theorem map_number : s.lines.map (·.2) =
    List.range' (max 1 (p.line - 2)) (lastShown source p + 1 - max 1 (p.line - 2)) := by
  have hfirst : max 1 (p.line - 2) = p.line - 3 + 1 := by omega
  have hcount : lastShown source p + 1 - (p.line - 3 + 1) = lastShown source p - (p.line - 3) := by
    omega
  rw [Surroundings.lines, ← s.quoted, filter_isShown source s.line_bounds.1, List.map_map, hfirst,
    hcount]
  simp only [List.range'_eq_map_range, List.map_map]
  exact List.map_congr_left fun i _ => Nat.add_right_comm _ _ _

end

/-- An excerpt shows the right lines. The line that an offset lies in is a line of the source. An
    excerpt for its position holds this line, with up to two lines above it and one below it, in
    the order of the source and each with its own number. All numbers are set to one width. The
    line in question has a mark and no other one has, and behind it comes a line with a caret,
    which is set off by as many blanks as there are columns in front of the position; the line in
    question has as many characters, or more. The lines that are shown can be read back from the
    text. -/
theorem excerpt_quotes (source : String) (offset : Nat) :
    (1 ≤ ((LineTable.ofSource source).position offset).line ∧
      ((LineTable.ofSource source).position offset).line ≤ (sourceLines source).length) ∧
    ∃ s : Surroundings source ((LineTable.ofSource source).position offset), s.AreShown := by
  rcases exists_surroundings source offset with ⟨s⟩
  have hlines := excerptLines_eq s
  refine ⟨s.line_bounds, s, map_number s, length_number s, ?_, fun kind message hint => ?_⟩
  · rw [hlines]
    exact sourceLines_join (not_mem_rows s)
  · rw [excerpt, hlines]

end Letterpress
