import Letterpress.Proofs.Grammar
import Letterpress.Proofs.Undefined
import Letterpress.Value
import Mathlib

/-!
# Numerals

Which texts stand for a number. The text of a value that comes from a script is meant to count as
the number that the script would make of it, so there are two grammars here: the numerals that a
script knows, which are decimals, one word, and whole numbers in three other bases, and the numerals
that are read. They are stated apart from the reader, as rules on characters that look neither at
offsets nor at values, and without regard to each other.

The two do not agree. What is read knows no other base, and knows the word for an infinity in any
mixture of cases and in a short form. So a text in another base is taken for no number at all, and
some ordinary words are taken for infinities. Everywhere else the two agree, and the main result
says of every text whether its number is undefined, with nothing left open.

Reading is decided character by character. Where a row of digits ends cannot be chosen, as no digit
begins what may stand behind it, so a decimal is taken apart in one way only.

## Main definitions

* `IsSign`, `IsRow`, `IsExponent`, `IsDecimal`: The pieces of a decimal.
* `IsInfinity`, `IsNumeral`: What is read as a number.
* `IsBased`, `IsScriptNumeral`: What a script knows as a number.
* `IsRespelt`: The infinities that a script does not know.

## Theorems

* `exponent?_isSome_iff`, `literal?_isSome_iff`: The reader follows the grammar.
* `exists_float?_iff`: What is read is a number, and a defined one.
* `isNumeral_iff`: The two grammars, and where they differ.
* `isNaN_numberOfText_iff`: A text is undefined if it is not blank and no numeral.
* `undefined_unless_numeral`: The texts whose number is undefined.
-/

namespace Letterpress

namespace Number

/-- A sign in front of a number, or none. -/
inductive IsSign : List Char → Prop where
  | absent : IsSign []
  | plus : IsSign ['+']
  | minus : IsSign ['-']

/-- A row of digits of some kind, and of at least one. -/
def IsRow (isOne : Char → Bool) (cs : List Char) : Prop :=
  cs ≠ [] ∧ ∀ c ∈ cs, isOne c = true

/-- An exponent, or nothing. -/
inductive IsExponent : List Char → Prop where
  | absent : IsExponent []
  | present {mark : Char} {sign ds : List Char} (hmark : mark = 'e' ∨ mark = 'E')
      (hsign : IsSign sign) (hds : IsRow Char.isDigit ds) : IsExponent (mark :: (sign ++ ds))

/-- A decimal without a sign. The point needs a digit on one side. -/
inductive IsDecimal : List Char → Prop where
  | whole {ds e : List Char} (hds : IsRow Char.isDigit ds) (he : IsExponent e) : IsDecimal (ds ++ e)
  | point {ds fs e : List Char} (hds : IsRow Char.isDigit ds) (hfs : ∀ c ∈ fs, c.isDigit = true)
      (he : IsExponent e) : IsDecimal (ds ++ '.' :: (fs ++ e))
  | bare {fs e : List Char} (hfs : IsRow Char.isDigit fs) (he : IsExponent e) :
      IsDecimal ('.' :: (fs ++ e))

/-- A word for an infinity, in any mixture of cases. -/
def IsInfinity (cs : List Char) : Prop :=
  cs.map Char.toLower = "inf".toList ∨ cs.map Char.toLower = "infinity".toList

/-- What is read as a number: a decimal or an infinity, with or without a sign. -/
def IsNumeral (cs : List Char) : Prop :=
  ∃ sign body, cs = sign ++ body ∧ IsSign sign ∧ (IsDecimal body ∨ IsInfinity body)

/-- The digits of the base that a letter stands for. -/
def isBaseDigit (mark c : Char) : Bool :=
  match mark with
  | 'x' | 'X' => c.isDigit || ('a' ≤ c && c ≤ 'f') || ('A' ≤ c && c ≤ 'F')
  | 'o' | 'O' => '0' ≤ c && c ≤ '7'
  | 'b' | 'B' => c == '0' || c == '1'
  | _ => false

/-- A whole number in base sixteen, eight or two. There is no sign. -/
def IsBased (cs : List Char) : Prop :=
  ∃ mark ds, cs = '0' :: mark :: ds ∧ IsRow (isBaseDigit mark) ds

/-- What a script knows as a number: a decimal or the one word for an infinity, with or without a
    sign, or a whole number in another base. -/
def IsScriptNumeral (cs : List Char) : Prop :=
  (∃ sign body, cs = sign ++ body ∧ IsSign sign ∧ (IsDecimal body ∨ body = "Infinity".toList)) ∨
    IsBased cs

/-- An infinity in another spelling than that of a script, with or without a sign. -/
def IsRespelt (cs : List Char) : Prop :=
  ∃ sign word, cs = sign ++ word ∧ IsSign sign ∧ IsInfinity word ∧ word ≠ "Infinity".toList

/-- The character is a sign. -/
def isSignMark (c : Char) : Bool := c == '+' || c == '-'

theorem exists_sign (cs : List Char) :
    ∃ sign, IsSign sign ∧ cs = sign ++ (splitSign cs).2 := by
  unfold splitSign
  split
  · exact ⟨['-'], .minus, rfl⟩
  · exact ⟨['+'], .plus, rfl⟩
  · exact ⟨[], .absent, rfl⟩

/-- A sign is split off from anything that does not begin with one itself. -/
theorem splitSign_append {sign cs : List Char} (hsign : IsSign sign) (hcs : StopsAt isSignMark cs) :
    (splitSign (sign ++ cs)).2 = cs := by
  cases hsign with
  | plus => rfl
  | minus => rfl
  | absent =>
      rw [List.nil_append]
      unfold splitSign
      split
      · exact absurd (hcs '-' rfl) (by decide)
      · exact absurd (hcs '+' rfl) (by decide)
      · rfl

theorem isSignMark_eq_false_iff {c : Char} : isSignMark c = false ↔ c ≠ '+' ∧ c ≠ '-' := by
  simp only [isSignMark, Bool.or_eq_false_iff, beq_eq_false_iff_ne]

theorem isSignMark_of_isDigit {c : Char} (h : c.isDigit = true) : isSignMark c = false := by
  rw [isSignMark_eq_false_iff]
  constructor <;>
    · rintro rfl
      cases h

/-- There is no sign in front of anything that does not begin with one. -/
theorem IsSign.eq_of_append {sign body rest : List Char} {c : Char} (h : IsSign sign)
    (hc : isSignMark c = false) (hsplit : c :: rest = sign ++ body) : body = c :: rest := by
  rw [isSignMark_eq_false_iff] at hc
  cases h with
  | absent => exact hsplit.symm
  | plus => exact absurd (List.cons.inj hsplit).1 hc.1
  | minus => exact absurd (List.cons.inj hsplit).1 hc.2

theorem IsRow.stopsAt {isOne p : Char → Bool} {cs : List Char} (h : IsRow isOne cs)
    (hp : ∀ c, isOne c = true → p c = false) (rest : List Char) : StopsAt p (cs ++ rest) := by
  rcases h with ⟨hne, hall⟩
  cases cs with
  | nil => exact absurd rfl hne
  | cons c cs => exact stopsAt_cons (hp c (hall c List.mem_cons_self)) _

theorem exponent?_isSome_iff {cs : List Char} : (exponent? cs).isSome = true ↔ IsExponent cs := by
  constructor
  · intro h
    cases cs with
    | nil => exact .absent
    | cons mark rest =>
        -- Behind the mark there may be a sign, and all the rest has to be digits.
        rcases exists_sign rest with ⟨sign, hsign, hrest⟩
        unfold exponent? at h
        dsimp only at h
        split at h
        · next hcond =>
            simp only [Bool.and_eq_true, Bool.or_eq_true, beq_iff_eq, Bool.not_eq_true',
              List.isEmpty_eq_false_iff, List.all_eq_true] at hcond
            rw [hrest]
            exact .present hcond.1.1 hsign ⟨hcond.1.2, hcond.2⟩
        · cases h
  · intro h
    cases h with
    | absent => rfl
    | @present mark sign ds hmark hsign hds =>
        have hsplit : (splitSign (sign ++ ds)).2 = ds := by
          have hstop := hds.stopsAt (fun _ => isSignMark_of_isDigit) []
          rw [List.append_nil] at hstop
          exact splitSign_append hsign hstop
        unfold exponent?
        dsimp only
        rw [hsplit, if_pos]
        · rfl
        · simp only [Bool.and_eq_true, Bool.or_eq_true, beq_iff_eq, Bool.not_eq_true',
            List.isEmpty_eq_false_iff, List.all_eq_true]
          exact ⟨⟨hmark, hds.1⟩, hds.2⟩

theorem IsExponent.stopsAt_isDigit {cs : List Char} (h : IsExponent cs) :
    StopsAt Char.isDigit cs := by
  cases h with
  | absent => exact stopsAt_nil _
  | present hmark =>
      refine stopsAt_cons ?_ _
      rcases hmark with rfl | rfl <;> rfl

theorem IsExponent.head?_ne_point {cs : List Char} (h : IsExponent cs) :
    StopsAt (· == '.') cs := by
  cases h with
  | absent => exact stopsAt_nil _
  | present hmark =>
      refine stopsAt_sign ?_ _
      rcases hmark with rfl | rfl <;> decide

/-- A row of digits without a point, and what stands behind it. -/
theorem literal?_whole {ds rest : List Char} (hds : ∀ c ∈ ds, c.isDigit = true)
    (hdigit : StopsAt Char.isDigit rest) (hpoint : StopsAt (· == '.') rest) :
    (literal? (ds ++ rest)).isSome = (!ds.isEmpty && (exponent? rest).isSome) := by
  have htake : (ds ++ rest).takeWhile Char.isDigit = ds := by
    rw [List.takeWhile_append_of_pos hds, hdigit.takeWhile, List.append_nil]
  have hdrop : (ds ++ rest).dropWhile Char.isDigit = rest := by
    rw [List.dropWhile_append_of_pos hds, hdigit.dropWhile]
  unfold literal?
  dsimp only
  rw [htake, hdrop]
  split
  · next behind => exact absurd rfl hpoint.head?_ne
  · cases ds <;> simp

/-- Digits with a point between them, or next to them, and what stands behind. -/
theorem literal?_point {ds fs rest : List Char} (hds : ∀ c ∈ ds, c.isDigit = true)
    (hfs : ∀ c ∈ fs, c.isDigit = true) (hdigit : StopsAt Char.isDigit rest) :
    (literal? (ds ++ '.' :: (fs ++ rest))).isSome =
      (!(ds.isEmpty && fs.isEmpty) && (exponent? rest).isSome) := by
  have hstop : StopsAt Char.isDigit ('.' :: (fs ++ rest)) := stopsAt_cons rfl _
  have htake : (ds ++ '.' :: (fs ++ rest)).takeWhile Char.isDigit = ds := by
    rw [List.takeWhile_append_of_pos hds, hstop.takeWhile, List.append_nil]
  have hdrop : (ds ++ '.' :: (fs ++ rest)).dropWhile Char.isDigit = '.' :: (fs ++ rest) := by
    rw [List.dropWhile_append_of_pos hds, hstop.dropWhile]
  have htake' : (fs ++ rest).takeWhile Char.isDigit = fs := by
    rw [List.takeWhile_append_of_pos hfs, hdigit.takeWhile, List.append_nil]
  have hdrop' : (fs ++ rest).dropWhile Char.isDigit = rest := by
    rw [List.dropWhile_append_of_pos hfs, hdigit.dropWhile]
  unfold literal?
  simp only [htake, hdrop, htake', hdrop']
  cases ds <;> cases fs <;> simp

/-- The reader takes the decimals apart, and nothing else. -/
theorem literal?_isSome_iff {cs : List Char} : (literal? cs).isSome = true ↔ IsDecimal cs := by
  constructor
  · intro h
    -- The characters in front of the first that is no digit are the whole part.
    obtain ⟨ds, rest, hds, hrest, rfl⟩ : ∃ ds rest, (∀ c ∈ ds, c.isDigit = true) ∧
        StopsAt Char.isDigit rest ∧ cs = ds ++ rest :=
      ⟨_, _, fun _ => List.mem_takeWhile_imp, stopsAt_dropWhile Char.isDigit cs,
        List.takeWhile_append_dropWhile.symm⟩
    -- Behind them there is a point or there is none, and with a point there are digits once more.
    by_cases hpoint : StopsAt (· == '.') rest
    · rw [literal?_whole hds hrest hpoint, Bool.and_eq_true, exponent?_isSome_iff] at h
      refine .whole ⟨?_, hds⟩ h.2
      simpa using h.1
    · rcases rest with _ | ⟨c, behind⟩
      · exact absurd (stopsAt_nil _) hpoint
      obtain rfl : c = '.' := by
        by_contra hne
        exact hpoint (stopsAt_sign hne behind)
      obtain ⟨fs, e, hfs, he, rfl⟩ : ∃ fs e, (∀ c ∈ fs, c.isDigit = true) ∧
          StopsAt Char.isDigit e ∧ behind = fs ++ e :=
        ⟨_, _, fun _ => List.mem_takeWhile_imp, stopsAt_dropWhile Char.isDigit behind,
          List.takeWhile_append_dropWhile.symm⟩
      rw [literal?_point hds hfs he, Bool.and_eq_true, exponent?_isSome_iff] at h
      by_cases hnone : ds = []
      · subst hnone
        refine .bare ⟨?_, hfs⟩ h.2
        simpa using h.1
      · exact .point ⟨hnone, hds⟩ hfs h.2
  · intro h
    cases h with
    | whole hds he =>
        rw [literal?_whole hds.2 he.stopsAt_isDigit he.head?_ne_point, Bool.and_eq_true,
          exponent?_isSome_iff]
        exact ⟨by simpa using hds.1, he⟩
    | point hds hfs he =>
        rw [literal?_point hds.2 hfs he.stopsAt_isDigit, Bool.and_eq_true, exponent?_isSome_iff]
        exact ⟨by simp [hds.1], he⟩
    | @bare fs e hfs he =>
        have hread := literal?_point (fun _ h => absurd h List.not_mem_nil) hfs.2 he.stopsAt_isDigit
        rw [List.nil_append] at hread
        rw [hread, Bool.and_eq_true, exponent?_isSome_iff]
        exact ⟨by simp [hfs.1], he⟩

theorem IsDecimal.stopsAt_isSignMark {cs : List Char} (h : IsDecimal cs) :
    StopsAt isSignMark cs := by
  cases h with
  | whole hds => exact hds.stopsAt (fun _ => isSignMark_of_isDigit) _
  | point hds => exact hds.stopsAt (fun _ => isSignMark_of_isDigit) _
  | bare => exact stopsAt_cons rfl _

/-- The characters of a decimal: digits, and those that stand between them. -/
def isDecimalPart (c : Char) : Bool :=
  c.isDigit || c == '.' || c == 'e' || c == 'E' || isSignMark c

theorem isDecimalPart_of_isDigit {c : Char} (h : c.isDigit = true) : isDecimalPart c = true := by
  simp only [isDecimalPart, h, Bool.true_or]

theorem IsSign.isPart {cs : List Char} (h : IsSign cs) : ∀ c ∈ cs, isDecimalPart c = true := by
  cases h with
  | absent => exact fun c hc => absurd hc List.not_mem_nil
  | plus => exact List.forall_mem_singleton.mpr (by decide)
  | minus => exact List.forall_mem_singleton.mpr (by decide)

theorem IsExponent.isPart {cs : List Char} (h : IsExponent cs) :
    ∀ c ∈ cs, isDecimalPart c = true := by
  cases h with
  | absent => exact fun c hc => absurd hc List.not_mem_nil
  | present hmark hsign hds =>
      rw [List.forall_mem_cons, List.forall_mem_append]
      refine ⟨?_, hsign.isPart, fun c hc => isDecimalPart_of_isDigit (hds.2 c hc)⟩
      rcases hmark with rfl | rfl <;> decide

/-- A decimal has no characters but digits, points, marks of exponents and signs. -/
theorem IsDecimal.isPart {cs : List Char} (h : IsDecimal cs) :
    ∀ c ∈ cs, isDecimalPart c = true := by
  cases h with
  | whole hds he =>
      rw [List.forall_mem_append]
      exact ⟨fun c hc => isDecimalPart_of_isDigit (hds.2 c hc), he.isPart⟩
  | point hds hfs he =>
      rw [List.forall_mem_append, List.forall_mem_cons, List.forall_mem_append]
      exact ⟨fun c hc => isDecimalPart_of_isDigit (hds.2 c hc), by decide,
        fun c hc => isDecimalPart_of_isDigit (hfs c hc), he.isPart⟩
  | bare hfs he =>
      rw [List.forall_mem_cons, List.forall_mem_append]
      exact ⟨by decide, fun c hc => isDecimalPart_of_isDigit (hfs.2 c hc), he.isPart⟩

theorem toLower_of_isDigit {c : Char} (h : c.isDigit = true) : c.toLower = c := by
  simp only [Char.isDigit, Char.toLower] at *
  grind

theorem IsInfinity.exists_cons {cs : List Char} (h : IsInfinity cs) :
    ∃ c rest, cs = c :: rest ∧ c.toLower = 'i' := by
  rcases cs with _ | ⟨c, rest⟩
  · rcases h with h | h <;> cases h
  · refine ⟨c, rest, rfl, ?_⟩
    rcases h with h | h <;> exact (List.cons.inj h).1

theorem IsInfinity.stopsAt_isSignMark {cs : List Char} (h : IsInfinity cs) :
    StopsAt isSignMark cs := by
  rcases h.exists_cons with ⟨c, rest, rfl, hc⟩
  refine stopsAt_cons (isSignMark_eq_false_iff.mpr ?_) _
  constructor <;>
    · rintro rfl
      cases hc

theorem special?_cases (cs : List Char) :
    (cs.map Char.toLower = "nan".toList ∧ special? cs = some (0 / 0)) ∨
      (IsInfinity cs ∧ special? cs = some (1 / 0)) ∨ (¬ IsInfinity cs ∧ special? cs = none) := by
  have htext : ∀ {s : String}, String.ofList (cs.map Char.toLower) = s ↔
      cs.map Char.toLower = s.toList := by
    intro s
    rw [← String.toList_inj, String.toList_ofList]
  unfold special?
  split
  · next h => exact .inl ⟨htext.mp h, rfl⟩
  · next h => exact .inr (.inl ⟨.inl (htext.mp h), rfl⟩)
  · next h => exact .inr (.inl ⟨.inr (htext.mp h), rfl⟩)
  · next hinf hinfinity =>
      refine .inr (.inr ⟨?_, rfl⟩)
      rintro (h | h)
      · exact hinf (htext.mpr h)
      · exact hinfinity (htext.mpr h)

theorem IsDecimal.not_nan {cs : List Char} (h : IsDecimal cs) :
    cs.map Char.toLower ≠ "nan".toList := by
  intro hnan
  rcases cs with _ | ⟨c, rest⟩
  · cases hnan
  have hc : c.toLower = 'n' := (List.cons.inj hnan).1
  have hpart := h.isPart c List.mem_cons_self
  simp only [isDecimalPart, isSignMark, Bool.or_eq_true, beq_iff_eq, or_assoc] at hpart
  rcases hpart with hdigit | rfl | rfl | rfl | rfl | rfl
  · rw [toLower_of_isDigit hdigit] at hc
    rw [hc] at hdigit
    cases hdigit
  all_goals cases hc

/-- What has no sign is read as a defined number exactly if it is a decimal or an infinity. -/
theorem exists_size_iff {cs : List Char} :
    (∃ x, (special? cs).or ((literal? cs).map Literal.toFloat) = some x ∧ x.isNaN = false) ↔
      IsDecimal cs ∨ IsInfinity cs := by
  rcases special?_cases cs with ⟨hnan, hread⟩ | ⟨hword, hread⟩ | ⟨hword, hread⟩
  · rw [hread]
    refine iff_of_false ?_ ?_
    · rintro ⟨x, hx, hdefined⟩
      cases hx
      exact absurd hdefined (by decide)
    · rintro (hdecimal | hword | hword)
      · exact hdecimal.not_nan hnan
      · rw [hnan] at hword
        cases hword
      · rw [hnan] at hword
        cases hword
  · rw [hread]
    exact iff_of_true ⟨_, rfl, by decide⟩ (.inr hword)
  · rw [hread, Option.none_or, or_iff_left hword, ← literal?_isSome_iff, Option.isSome_iff_exists]
    constructor
    · rintro ⟨x, hx, _⟩
      rcases Option.map_eq_some_iff.mp hx with ⟨l, hl, _⟩
      exact ⟨l, hl⟩
    · rintro ⟨l, hl⟩
      exact ⟨l.toFloat, by rw [hl]; rfl, isNaN_toFloat l⟩

/-- What is read is a numeral, and its number is defined. -/
theorem exists_float?_iff {s : String} :
    (∃ x, float? s = some x ∧ x.isNaN = false) ↔ IsNumeral s.toList := by
  have hsize : (∃ x, float? s = some x ∧ x.isNaN = false) ↔
      IsDecimal (splitSign s.toList).2 ∨ IsInfinity (splitSign s.toList).2 := by
    rw [← exists_size_iff]
    unfold float?
    simp only [Option.map_eq_some_iff]
    constructor
    · rintro ⟨_, ⟨x, hx, rfl⟩, hdefined⟩
      refine ⟨x, hx, ?_⟩
      split at hdefined
      · rwa [isNaN_neg] at hdefined
      · exact hdefined
    · rintro ⟨x, hx, hdefined⟩
      refine ⟨_, ⟨x, hx, rfl⟩, ?_⟩
      split
      · rwa [isNaN_neg]
      · exact hdefined
  rw [hsize]
  constructor
  · intro h
    rcases exists_sign s.toList with ⟨sign, hsign, hsplit⟩
    exact ⟨sign, _, hsplit, hsign, h⟩
  · rintro ⟨sign, body, hsplit, hsign, h⟩
    -- No number begins with a second sign, so the reader cuts at the same place.
    have hstop : StopsAt isSignMark body :=
      h.elim IsDecimal.stopsAt_isSignMark IsInfinity.stopsAt_isSignMark
    rwa [hsplit, splitSign_append hsign hstop]

theorem isBaseDigit_mark {mark c : Char} (h : isBaseDigit mark c = true) :
    mark ∈ ['x', 'X', 'o', 'O', 'b', 'B'] := by
  unfold isBaseDigit at h
  split at h <;> simp_all

/-- What has another base is no numeral: the letter for the base can stand in no decimal, and the
    zero in front of it in no word. -/
theorem IsBased.not_isNumeral {cs : List Char} (h : IsBased cs) : ¬ IsNumeral cs := by
  rcases h with ⟨mark, ds, rfl, hne, hds⟩
  rintro ⟨sign, body, hsplit, hsign, hbody⟩
  obtain rfl := hsign.eq_of_append rfl hsplit
  rcases hbody with hdecimal | hword
  · obtain ⟨c, hc⟩ := List.exists_mem_of_ne_nil ds hne
    have hmark := isBaseDigit_mark (hds c hc)
    have hpart := hdecimal.isPart mark (List.mem_cons_of_mem _ List.mem_cons_self)
    simp only [List.mem_cons, List.not_mem_nil, or_false] at hmark
    rcases hmark with rfl | rfl | rfl | rfl | rfl | rfl <;> revert hpart <;> decide
  · rcases hword.exists_cons with ⟨c, rest, hcons, hc⟩
    rw [← (List.cons.inj hcons).1] at hc
    cases hc

/-- The two grammars agree but for other bases, which are not read, and other spellings of an
    infinity, which a script does not know. -/
theorem isNumeral_iff {cs : List Char} :
    IsNumeral cs ↔ (IsScriptNumeral cs ∧ ¬ IsBased cs) ∨ IsRespelt cs := by
  constructor
  · intro h
    have hbased : ¬ IsBased cs := fun hbased => hbased.not_isNumeral h
    rcases h with ⟨sign, body, hsplit, hsign, hdecimal | hword⟩
    · exact .inl ⟨.inl ⟨sign, body, hsplit, hsign, .inl hdecimal⟩, hbased⟩
    · by_cases hspelling : body = "Infinity".toList
      · exact .inl ⟨.inl ⟨sign, body, hsplit, hsign, .inr hspelling⟩, hbased⟩
      · exact .inr ⟨sign, body, hsplit, hsign, hword, hspelling⟩
  · rintro (⟨⟨sign, body, hsplit, hsign, hdecimal | rfl⟩ | hbased, hnot⟩ |
      ⟨sign, body, hsplit, hsign, hword, _⟩)
    · exact ⟨sign, body, hsplit, hsign, .inl hdecimal⟩
    · exact ⟨sign, _, hsplit, hsign, .inr (.inr rfl)⟩
    · exact absurd hbased hnot
    · exact ⟨sign, body, hsplit, hsign, .inr hword⟩

/-- The number of a text is undefined if the text is not blank and not a numeral. -/
theorem isNaN_numberOfText_iff {s : String} :
    (Value.numberOfText s).isNaN = true ↔ Text.trim s ≠ "" ∧ ¬ IsNumeral (Text.trim s).toList := by
  rw [← exists_float?_iff]
  unfold Value.numberOfText
  dsimp only
  by_cases hblank : Text.trim s = ""
  · rw [hblank]
    decide
  · rw [if_neg (by simpa using hblank)]
    cases hread : float? (Text.trim s) with
    | none => simp [hblank]; decide
    | some x => simp [hblank]

end Number

/-- The number of a text is undefined if the text, without the blanks around it, is not empty and no
    numeral of a script, except that what a script would read in another base is undefined as well,
    and that an infinity is defined in any spelling. -/
theorem undefined_unless_numeral (s : String) :
    (Value.text s).asNumber.isNaN = true ↔ Text.trim s ≠ "" ∧
      ¬ (Number.IsScriptNumeral (Text.trim s).toList ∧ ¬ Number.IsBased (Text.trim s).toList) ∧
        ¬ Number.IsRespelt (Text.trim s).toList := by
  rw [Value.asNumber, Number.isNaN_numberOfText_iff, Number.isNumeral_iff, not_or]

/-- In another base a number is not read, and in another spelling an infinity is. -/
theorem hexadecimal_undefined :
    (Value.text "0x10").asNumber.isNaN = true ∧
      Number.IsScriptNumeral (Text.trim "0x10").toList ∧
      (Value.text "inf").asNumber.isNaN = false ∧ Text.trim "inf" ≠ "" ∧
      ¬ Number.IsScriptNumeral (Text.trim "inf").toList := by
  have hbased : Number.IsBased (Text.trim "0x10").toList :=
    ⟨'x', ['1', '0'], by decide, by decide, by simp; decide⟩
  refine ⟨by decide, .inr hbased, by decide, by decide, ?_⟩
  rw [show (Text.trim "inf").toList = ['i', 'n', 'f'] by decide]
  rintro (⟨sign, body, hsplit, hsign, hbody⟩ | ⟨mark, ds, hsplit, _⟩)
  · obtain rfl := hsign.eq_of_append rfl hsplit
    rcases hbody with hdecimal | hword
    · have hpart := hdecimal.isPart 'i' List.mem_cons_self
      revert hpart
      decide
    · cases hword
  · cases (List.cons.inj hsplit).1

end Letterpress
