/-
  PRINTING — what is written out with separators is scanned back.

  1. **Data** — a `Lexeme` is a kind with one of its texts, a `Separator` is blanks and comments that starts
     with a blank and in which a newline ends every comment.  A `Script` is any number of lexemes in
     order, with a separator between any two neighbours; `Script.text` writes it out.

  2. **One lexeme** — `readsAs`: in front of a character that does not prolong it, a lexeme is cut off as a
     whole and read as its kind, whatever comes further behind.  It is the converse of what a cut is
     known to do, one lemma for each of the four classes.

  3. **Separators** — a blank prolongs no lexeme (`endsBefore_of_isBlank`), since no blank is part of a
     word; and trivia are split off as a whole (`Filler.splitTrivia_append`).

  4. **Result** — `scan_text`, by induction over the lexemes.
-/
import CalcFrontEnd.Proofs.Lexis.Maximal

namespace CalcFrontEnd

namespace Lexis

open Text

/-! ## Character classes -/

/-- A character of a class is none that is not in the class. -/
theorem ne_of_class {p : Char → Bool} {c d : Char} (hc : p c = true) (hd : p d = false) : c ≠ d := by
  rintro rfl
  rw [hd] at hc
  cases hc

/-- The code points of blanks, one by one. -/
def blankPoints : List Nat := blankRanges.flatMap fun r => List.range' r.first (r.last + 1 - r.first)

theorem toNat_mem_blankPoints {c : Char} (h : isBlank c = true) : c.toNat ∈ blankPoints := by
  obtain ⟨r, hr, hfirst, hlast⟩ := isBlank_iff.mp h
  refine List.mem_flatMap.mpr ⟨r, hr, List.mem_range'_1.mpr ⟨hfirst, ?_⟩⟩
  omega

/-- **No blank is part of a word.** -/
theorem isWordPart_of_isBlank {c : Char} (h : isBlank c = true) : isWordPart c = false := by
  have table : ∀ n ∈ blankPoints, covers letterRanges n = false ∧ covers numeralRanges n = false := by
    decide +kernel
  obtain ⟨hletter, hnumeral⟩ := table c.toNat (toNat_mem_blankPoints h)
  have hunderscore : c ≠ '_' := ne_of_class h (by decide)
  simp [isWordPart, isLetter, isNumeral, hletter, hnumeral, hunderscore]

/-- Below the first range of a list nothing is covered. -/
theorem covers_of_lt_first {ranges : List Range} {r : Range} {n : Nat} (h : n < r.first) :
    covers (r :: ranges) n = false := by
  have hfirst : ¬r.first ≤ n := Nat.not_le_of_lt h
  simp [covers, hfirst]

theorem toNat_of_isDigit {c : Char} (h : c.isDigit = true) : 48 ≤ c.toNat ∧ c.toNat ≤ 57 := by
  simp only [Char.isDigit, Bool.and_eq_true, decide_eq_true_eq, UInt32.le_iff_toNat_le,
    ge_iff_le] at h
  exact h

/-- No digit starts a word. -/
theorem isWordStart_of_isDigit {c : Char} (h : c.isDigit = true) : isWordStart c = false := by
  have hletter : isLetter c = false := by
    refine covers_of_lt_first (r := ⟨0x41, 0x5A⟩) ?_
    show c.toNat < 0x41
    have := toNat_of_isDigit h
    omega
  have hunderscore : c ≠ '_' := ne_of_class h (by decide)
  simp [isWordStart, hletter, hunderscore]

/-- Every digit may stand in a word. -/
theorem isWordPart_of_isDigit {c : Char} (h : c.isDigit = true) : isWordPart c = true := by
  have hnumeral : isNumeral c = true := by
    obtain ⟨hfirst, hlast⟩ := toNat_of_isDigit h
    show (decide (0x30 ≤ c.toNat) && (decide (c.toNat ≤ 0x39) || _)) = true
    simp [hfirst, hlast]
  simp [isWordPart, hnumeral]

theorem isWordPart_of_isWordStart {c : Char} (h : isWordStart c = true) : isWordPart c = true := by
  simp only [isWordStart, Bool.or_eq_true] at h
  simp only [isWordPart, Bool.or_eq_true]
  rcases h with h | h
  · exact Or.inl (Or.inl h)
  · exact Or.inr h

/-- What may stand in a word is no blank. -/
theorem isBlank_of_isWordPart {c : Char} (h : isWordPart c = true) : isBlank c = false := by
  cases hblank : isBlank c with
  | false => rfl
  | true =>
    rw [isWordPart_of_isBlank hblank] at h
    cases h

/-- **A blank prolongs no lexeme.** -/
theorem endsBefore_of_isBlank {next : Char} (h : isBlank next = true) (kind : Kind)
    (text : List Char) : EndsBefore kind text next := by
  have hne : ∀ c, isBlank c = false → next ≠ c := fun c => ne_of_class h
  unfold EndsBefore
  split
  · trivial
  · refine ⟨?_, fun _ _ => hne '.' (by decide), fun _ => ⟨hne 'e' (by decide), hne 'E' (by decide)⟩⟩
    cases hdigit : next.isDigit with
    | false => rfl
    | true =>
      rw [isBlank_of_isWordPart (isWordPart_of_isDigit hdigit)] at h
      cases h
  · split
    · -- the second characters of the doubles are no blanks
      have hlast : ∀ double ∈ doubles, double.getLast?.any isBlank = false := by decide
      intro hmem
      have hnext := hlast _ hmem
      rw [List.getLast?_concat, Option.any_some, h] at hnext
      cases hnext
    · exact isWordPart_of_isBlank h

/-! ## One lexeme -/

/-- `ReadsAs kind text tail` — in front of `text` and `tail` no trivia stand, and `text` is cut off as a
    token of the kind. -/
def ReadsAs (kind : Kind) (text tail : List Char) : Prop :=
  ∃ c rest, text = c :: rest ∧ isBlank c = false ∧ ¬['/', '/'] <+: c :: (rest ++ tail) ∧
    cut c (rest ++ tail) = ⟨.token kind, text, tail⟩

/-- What does not start with a slash is no comment. -/
theorem not_comment_of_ne {c : Char} (h : c ≠ '/') (text : List Char) :
    ¬['/', '/'] <+: c :: text :=
  fun hopens => h (List.cons_prefix_cons.mp hopens).1.symm

/-- A run of characters is taken as a whole, if what comes next does not belong to it. -/
theorem span_run {p : Char → Bool} {run tail : List Char} (hrun : ∀ c ∈ run, p c = true)
    (htail : ∀ c, tail.head? = some c → p c = false) :
    (run ++ tail).takeWhile p = run ∧ (run ++ tail).dropWhile p = tail := by
  rw [List.takeWhile_append_of_pos hrun, List.dropWhile_append_of_pos hrun]
  cases tail with
  | nil => exact ⟨by simp, rfl⟩
  | cons c tail => simp [htail c rfl]

theorem readsAs_string {text : List Char} (h : IsString text) (tail : List Char) :
    ReadsAs .string text tail := by
  obtain ⟨body, rfl, hbody⟩ := h
  refine ⟨'"', body ++ ['"'], rfl, by decide, not_comment_of_ne (by decide) _, ?_⟩
  have hpart : ∀ c ∈ body, isStringPart c = true := by
    intro c hc
    simpa [isStringPart] using hbody c hc
  have hquote : ∀ c, ('"' :: tail).head? = some c → isStringPart c = false := by
    rintro c ⟨⟩
    decide
  obtain ⟨htake, hdrop⟩ := span_run hpart hquote
  show cutString _ = _
  rw [List.append_assoc, List.singleton_append, cutString, htake, hdrop]
  rfl

theorem readsAs_word {kind : Kind} {text tail : List Char} (h : IsWord text)
    (hkind : Kind.ofWord text = kind) (hnext : ∀ c, tail.head? = some c → isWordPart c = false) :
    ReadsAs kind text tail := by
  obtain ⟨c, rest, rfl, hc, hrest⟩ := h
  have hblank := isBlank_of_isWordPart (isWordPart_of_isWordStart hc)
  have hquote : c ≠ '"' := ne_of_class hc (by decide +kernel)
  have hslash : c ≠ '/' := ne_of_class hc (by decide +kernel)
  refine ⟨c, rest, rfl, hblank, not_comment_of_ne hslash _, ?_⟩
  obtain ⟨htake, hdrop⟩ := span_run hrest hnext
  rw [cut, if_neg hquote, if_pos hc, cutWord, htake, hdrop, hkind]

/-! ### Numbers -/

theorem IsDigits.not_mem {text : List Char} (h : IsDigits text) {c : Char} (hc : c.isDigit = false) :
    c ∉ text := by
  intro hmem
  exact ne_of_class (h.2 c hmem) hc rfl

/-- A sign in front of a digit is found. -/
theorem signOf_digit {sign : List Char} (hsign : sign = [] ∨ sign = ['+'] ∨ sign = ['-']) {d : Char}
    (hd : d.isDigit = true) (rest : List Char) : signOf (sign ++ d :: rest) = sign := by
  rcases hsign with rfl | rfl | rfl
  · have hne : ¬(d = '+' ∨ d = '-') := by
      rintro (rfl | rfl) <;> exact absurd hd (by decide)
    show (if d = '+' ∨ d = '-' then [d] else []) = []
    rw [if_neg hne]
  · rfl
  · rfl

/-- An exponent is taken as a whole; without one, what comes next must not look like one. -/
theorem cutExponent_run {exponent tail : List Char} (h : IsExponent exponent)
    (hdigit : ∀ c, tail.head? = some c → c.isDigit = false)
    (hmark : exponent = [] → ∀ c, tail.head? = some c → c ≠ 'e' ∧ c ≠ 'E') (mantissa : List Char) :
    cutExponent mantissa (exponent ++ tail) = ⟨.token .number, mantissa ++ exponent, tail⟩ := by
  rcases h with rfl | ⟨mark, sign, digits, rfl, hmarked, hsign, hne, hdigits⟩
  · rw [List.append_nil, List.nil_append]
    cases tail with
    | nil => rfl
    | cons c tail => rw [cutExponent, if_neg (not_or.mpr (hmark rfl c rfl))]
  · obtain ⟨d, digits, rfl⟩ := List.exists_cons_of_ne_nil hne
    obtain ⟨hd, hdigits⟩ := List.forall_mem_cons.mp hdigits
    obtain ⟨htake, hdrop⟩ := span_run hdigits hdigit
    have hfound := signOf_digit hsign hd (digits ++ tail)
    have hbehind : (sign ++ d :: (digits ++ tail)).drop sign.length = d :: (digits ++ tail) :=
      List.drop_left
    simp only [List.cons_append, List.append_assoc, cutExponent, if_pos hmarked, hfound, hbehind,
      if_pos hd, htake, hdrop]

/-- Without a point in front there is no fraction. -/
theorem cutFraction_of_head?_ne {text : List Char} (h : text.head? ≠ some '.') (whole : List Char) :
    cutFraction whole text = cutExponent whole text := by
  cases text with
  | nil => rfl
  | cons c text => exact cutFraction_of_ne (fun hc => h (congrArg some hc)) whole text

/-- What stands behind the digits of a number is no digit. -/
theorem isDigit_head?_exponent {exponent tail : List Char} (h : IsExponent exponent)
    (hdigit : ∀ c, tail.head? = some c → c.isDigit = false) :
    ∀ c, (exponent ++ tail).head? = some c → c.isDigit = false := by
  rcases h with rfl | ⟨mark, sign, digits, rfl, hmark, -⟩
  · exact hdigit
  · rintro c ⟨⟩
    rcases hmark with rfl | rfl <;> decide

/-- A fraction is taken as a whole; without one, what comes next must not look like one. -/
theorem cutFraction_mantissa {fraction tail : List Char} (h : IsFraction fraction)
    (hdigit : ∀ c, tail.head? = some c → c.isDigit = false)
    (hpoint : fraction = [] → tail.head? ≠ some '.') (whole : List Char) :
    cutFraction whole (fraction ++ tail) = cutExponent (whole ++ fraction) tail := by
  rcases h with rfl | ⟨digits, rfl, hne, hdigits⟩
  · rw [List.nil_append, List.append_nil, cutFraction_of_head?_ne (hpoint rfl)]
  · obtain ⟨d, digits, rfl⟩ := List.exists_cons_of_ne_nil hne
    obtain ⟨hd, hdigits⟩ := List.forall_mem_cons.mp hdigits
    obtain ⟨htake, hdrop⟩ := span_run hdigits hdigit
    simp only [List.cons_append, cutFraction, if_pos hd, htake, hdrop]

/-- A fraction and an exponent are taken as a whole; without a fraction, and without an exponent, what
    comes next must not look like one. -/
theorem cutFraction_run {fraction exponent tail : List Char} (hfraction : IsFraction fraction)
    (hexponent : IsExponent exponent) (hdigit : ∀ c, tail.head? = some c → c.isDigit = false)
    (hpoint : fraction = [] → exponent = [] → tail.head? ≠ some '.')
    (hmark : exponent = [] → ∀ c, tail.head? = some c → c ≠ 'e' ∧ c ≠ 'E') (whole : List Char) :
    cutFraction whole (fraction ++ (exponent ++ tail)) =
      ⟨.token .number, whole ++ (fraction ++ exponent), tail⟩ := by
  have hhead : fraction = [] → (exponent ++ tail).head? ≠ some '.' := by
    intro hfraction
    rcases hexponent with rfl | ⟨mark, sign, digits, rfl, hmarked, -⟩
    · exact hpoint hfraction rfl
    · rcases hmarked with rfl | rfl <;> exact fun h => absurd (Option.some.inj h) (by decide)
  rw [cutFraction_mantissa hfraction (isDigit_head?_exponent hexponent hdigit) hhead,
    cutExponent_run hexponent hdigit hmark, List.append_assoc]

/-- A number starts with all the digits that stand in front. -/
theorem cut_digits {c : Char} {digits tail : List Char} (h : IsDigits (c :: digits))
    (hdigit : ∀ d, tail.head? = some d → d.isDigit = false) :
    cut c (digits ++ tail) = cutFraction (c :: digits) tail := by
  obtain ⟨hc, hdigits⟩ := List.forall_mem_cons.mp h.2
  obtain ⟨htake, hdrop⟩ := span_run hdigits hdigit
  have hquote : c ≠ '"' := ne_of_class hc (by decide)
  have hword : ¬isWordStart c = true := by simp [isWordStart_of_isDigit hc]
  rw [cut, if_neg hquote, if_neg hword, if_pos hc, cutNumber, htake, hdrop]

theorem readsAs_number {text tail : List Char} (h : IsNumber text)
    (hnext : ∀ c, tail.head? = some c → EndsBefore .number text c) : ReadsAs .number text tail := by
  obtain ⟨whole, fraction, exponent, rfl, hwhole, hfraction, hexponent⟩ := h
  have hdigit : ∀ c, tail.head? = some c → c.isDigit = false := fun c hc => (hnext c hc).1
  -- digits and a point do not look like an exponent
  have hnone : exponent = [] → ¬HasExponent (whole ++ (fraction ++ exponent)) := by
    intro hexponent
    have hletter : ∀ c, c.isDigit = false → c ≠ '.' → c ∉ whole ++ (fraction ++ exponent) := by
      intro c hc hne
      rw [hexponent, List.append_nil, List.mem_append, not_or]
      refine ⟨hwhole.not_mem hc, ?_⟩
      rcases hfraction with rfl | ⟨digits, rfl, hdigits⟩
      · exact List.not_mem_nil
      · exact fun hmem => (List.mem_cons.mp hmem).elim hne (hdigits.not_mem hc)
    exact not_or.mpr ⟨hletter 'e' (by decide) (by decide), hletter 'E' (by decide) (by decide)⟩
  have hpoint : fraction = [] → exponent = [] → tail.head? ≠ some '.' := by
    intro hfraction hexponent hhead
    refine (hnext '.' hhead).2.1 ?_ (hnone hexponent) rfl
    simp [hfraction, hexponent, hwhole.not_mem (c := '.') (by decide)]
  have hmark : exponent = [] → ∀ c, tail.head? = some c → c ≠ 'e' ∧ c ≠ 'E' :=
    fun hexponent c hc => (hnext c hc).2.2 (hnone hexponent)
  obtain ⟨c, digits, rfl⟩ := List.exists_cons_of_ne_nil hwhole.1
  have hc : c.isDigit = true := hwhole.2 c List.mem_cons_self
  have hslash : c ≠ '/' := ne_of_class hc (by decide)
  refine ⟨c, digits ++ (fraction ++ exponent), rfl, isBlank_of_isWordPart (isWordPart_of_isDigit hc),
    not_comment_of_ne hslash _, ?_⟩
  have hbehind : ∀ d, (fraction ++ (exponent ++ tail)).head? = some d → d.isDigit = false := by
    rcases hfraction with rfl | ⟨others, rfl, -⟩
    · rw [List.nil_append]
      exact isDigit_head?_exponent hexponent hdigit
    · rintro d ⟨⟩
      decide
  rw [List.append_assoc, List.append_assoc, cut_digits hwhole hbehind,
    cutFraction_run hfraction hexponent hdigit hpoint hmark]

/-! ### Operators -/

/-- Where two characters make no longer operator, the first of them decides. -/
theorem operatorAt?_single {c next : Char} (h : [c, next] ∉ doubles) (tail : List Char) :
    Kind.operatorAt? (c :: next :: tail) = Kind.operatorAt? [c] := by
  -- no two-character operator fits on either side, and the others see the first character only
  have hfits : ∀ kind ∈ Kind.operators, ∀ spelling ∈ kind.spelling?,
      spelling.isPrefixOf (c :: next :: tail) = spelling.isPrefixOf [c] := by
    have hshape : ∀ kind ∈ Kind.operators, ∀ spelling ∈ kind.spelling?,
        spelling.length = 1 ∨ spelling.length = 2 ∧ spelling ∈ doubles := by decide
    intro kind hkind spelling hspelling
    rcases hshape kind hkind spelling hspelling with hone | ⟨htwo, hmem⟩
    · obtain ⟨a, rfl⟩ := List.length_eq_one_iff.mp hone
      rfl
    · obtain ⟨a, others, rfl⟩ := List.exists_cons_of_length_eq_add_one htwo
      obtain ⟨b, rfl⟩ := List.length_eq_one_iff.mp (Nat.succ.inj htwo)
      have hne : ¬(a = c ∧ b = next) := by
        rintro ⟨rfl, rfl⟩
        exact h hmem
      simpa [List.isPrefixOf] using hne
  unfold Kind.operatorAt?
  generalize Kind.operators = kinds at hfits
  induction kinds with
  | nil => rfl
  | cons kind kinds ih =>
    obtain ⟨hkind, hkinds⟩ := List.forall_mem_cons.mp hfits
    rw [List.findSome?_cons, List.findSome?_cons, ih hkinds]
    cases hspelling : kind.spelling? with
    | none => rfl
    | some spelling => simp only [hkind spelling hspelling]

/-- An operator that nothing prolongs is found. -/
theorem operatorAt?_run {kind : Kind} (hkind : kind ∈ Kind.operators) {text tail : List Char}
    (h : kind.spelling? = some text) (hnext : ∀ c, tail.head? = some c → text ++ [c] ∉ doubles) :
    Kind.operatorAt? (text ++ tail) = some (kind, text) := by
  have table : ∀ kind ∈ Kind.operators, ∀ text ∈ kind.spelling?,
      Kind.operatorAt? text = some (kind, text) ∧ text ≠ [] := by decide
  obtain ⟨halone, hne⟩ := table kind hkind text h
  obtain ⟨c, rest, rfl⟩ := List.exists_cons_of_ne_nil hne
  rw [← halone]
  cases rest with
  | cons d rest => exact operatorAt?_append_of_le (by simp) _
  | nil =>
    cases tail with
    | nil => rfl
    | cons next tail => exact operatorAt?_single (hnext next rfl) tail

/-- Whether `c` is no blank and opens no string literal, no word and no number; nor is it a point. -/
def isOther (c : Char) : Bool :=
  !isBlank c && c != '"' && !isWordStart c && !c.isDigit && c != '.'

theorem readsAs_operator {kind : Kind} (hkind : kind ∈ Kind.operators) {text tail : List Char}
    (h : kind.spelling? = some text) (hnext : ∀ c, tail.head? = some c → EndsBefore kind text c) :
    ReadsAs kind text tail := by
  -- no operator starts like another lexeme, and with a slash only one does
  have table : ∀ kind ∈ Kind.operators, ∀ text ∈ kind.spelling?,
      text.head?.any isOther = true ∧ (text.head? = some '/' → text = ['/']) := by decide +kernel
  obtain ⟨hopens, hslash⟩ := table kind hkind text h
  obtain ⟨c, hhead, hother⟩ := (Option.any_eq_true _ _).mp hopens
  obtain ⟨rest, rfl⟩ := List.head?_eq_some_iff.mp hhead
  obtain ⟨hblank, hquote, hword, hdigit, hpoint⟩ : isBlank c = false ∧ c ≠ '"' ∧
      ¬isWordStart c = true ∧ ¬c.isDigit = true ∧ c ≠ '.' := by
    simpa [isOther, and_assoc] using hother
  have hdouble : ∀ d, tail.head? = some d → c :: rest ++ [d] ∉ doubles :=
    fun d hd => (endsBefore_operator_iff hkind).mp (hnext d hd)
  refine ⟨c, rest, rfl, hblank, ?_, ?_⟩
  · intro hopens
    obtain ⟨hc, hbehind⟩ := List.cons_prefix_cons.mp hopens
    obtain rfl : rest = [] := (List.cons.inj (hslash (congrArg some hc.symm))).2
    obtain ⟨others, rfl⟩ := hbehind
    exact hdouble '/' rfl (by rw [← hc]; decide)
  · have hat := operatorAt?_run hkind h hdouble
    rw [List.cons_append] at hat
    rw [cut, if_neg hquote, if_neg hword, if_neg hdigit, if_neg hpoint, cutOperator, hat]
    simp

/-! ### All lexemes -/

/-- A lexeme is a string literal, a number, a word or an operator. -/
theorem IsLexeme.classes {kind : Kind} {text : List Char} (h : IsLexeme kind text) :
    kind = .string ∧ IsString text ∨ kind = .number ∧ IsNumber text ∨
      kind ∈ wordKinds ∧ IsWord text ∧ Kind.ofWord text = kind ∨
      kind ∈ Kind.operators ∧ kind.spelling? = some text := by
  have table : ∀ kind ∈ Kind.all, ∀ text ∈ kind.spelling?,
      kind ∈ wordKinds ∧ text.head?.any isWordStart = true ∧ text.tail.all isWordPart = true ∧
        Kind.ofWord text = kind ∨
      kind ∈ Kind.operators := by decide +kernel
  unfold IsLexeme at h
  split at h
  · obtain ⟨hword, hreserved⟩ := h
    refine Or.inr (Or.inr (Or.inl ⟨List.mem_cons_self, hword, ?_⟩))
    have hfind : (Kind.reserved.find? fun kind => kind.spelling? == some text) = none :=
      List.find?_eq_none.mpr fun kind hmem => by simpa using hreserved kind hmem
    rw [Kind.ofWord, hfind]
    rfl
  · exact Or.inr (Or.inl ⟨rfl, h⟩)
  · exact Or.inl ⟨rfl, h⟩
  · rcases table _ (Kind.mem_all _) text h with ⟨hkind, hstart, hrest, hword⟩ | hkind
    · obtain ⟨c, hhead, hc⟩ := (Option.any_eq_true _ _).mp hstart
      obtain ⟨rest, rfl⟩ := List.head?_eq_some_iff.mp hhead
      exact Or.inr (Or.inr (Or.inl ⟨hkind, ⟨c, rest, rfl, hc, List.all_eq_true.mp hrest⟩, hword⟩))
    · exact Or.inr (Or.inr (Or.inr ⟨hkind, h⟩))

/-- **A lexeme that nothing prolongs is read as its kind.** -/
theorem readsAs {kind : Kind} {text tail : List Char} (h : IsLexeme kind text)
    (hnext : ∀ c, tail.head? = some c → EndsBefore kind text c) : ReadsAs kind text tail := by
  rcases h.classes with ⟨rfl, h⟩ | ⟨rfl, h⟩ | ⟨hkind, h, hword⟩ | ⟨hkind, h⟩
  · exact readsAs_string h tail
  · exact readsAs_number h hnext
  · exact readsAs_word h hword fun c hc => (endsBefore_word_iff hkind).mp (hnext c hc)
  · exact readsAs_operator hkind h hnext

/-- A dissection starts with what is read first. -/
theorem ReadsAs.dissects {kind : Kind} {text tail : List Char} (h : ReadsAs kind text tail)
    {line : Nat} {pieces : List Piece} (hpieces : Dissects line tail pieces) :
    Dissects line (text ++ tail)
      (⟨[], text, .token ⟨kind, String.ofList text, line⟩⟩ :: pieces) := by
  obtain ⟨c, rest, rfl, hblank, hcomment, hcut⟩ := h
  have hslash : ¬(c = '/' ∧ (rest ++ tail).head? = some '/') := by
    rintro ⟨rfl, hhead⟩
    obtain ⟨others, hothers⟩ := List.head?_eq_some_iff.mp hhead
    exact hcomment ⟨others, by rw [hothers]; rfl⟩
  have hsplit : splitTrivia false (c :: (rest ++ tail)) = ([], c :: (rest ++ tail)) := by
    simp only [splitTrivia, hblank, if_neg hslash, Bool.false_eq_true, if_false]
  have hrest : Dissects (line + ([] : List Char).count '\n') (cut c (rest ++ tail)).rest pieces := by
    rw [hcut]
    exact hpieces
  have hread := Dissects.read hsplit hrest
  rw [hcut] at hread
  exact hread

/-! ## Separators -/

/-- `Filler gap` — blanks and comments, in which a newline ends every comment. -/
inductive Filler : List Char → Prop where
  | nil : Filler []
  | blank {c : Char} {gap : List Char} (hc : isBlank c = true) (h : Filler gap) : Filler (c :: gap)
  | comment {body gap : List Char} (hbody : '\n' ∉ body) (h : Filler gap) :
      Filler ('/' :: '/' :: (body ++ '\n' :: gap))

/-- A comment is split off up to its newline, and with it what follows. -/
theorem splitTrivia_comment {body : List Char} (hbody : '\n' ∉ body) (text : List Char) :
    splitTrivia true (body ++ '\n' :: text) =
      (body ++ '\n' :: (splitTrivia false text).1, (splitTrivia false text).2) := by
  have hrun : ∀ c ∈ body, (c != '\n') = true := by
    intro c hc
    simpa using ne_of_mem_of_not_mem hc hbody
  have hstop : ∀ c, ('\n' :: text).head? = some c → (c != '\n') = false := by
    rintro c ⟨⟩
    decide
  obtain ⟨htake, hdrop⟩ := span_run hrun hstop
  rw [splitTrivia_true, htake, hdrop]
  rfl

/-- **Filler is split off as a whole**, and what is behind it is split in turn. -/
theorem Filler.splitTrivia_append {gap : List Char} (h : Filler gap) (more : List Char) :
    splitTrivia false (gap ++ more) = runOn (gap, []) more := by
  induction h with
  | nil => rfl
  | @blank c gap hc _ ih =>
    rw [List.cons_append, splitTrivia, if_neg Bool.false_ne_true, if_pos hc, ih]
    rfl
  | @comment body gap hbody _ ih =>
    have hopen : splitTrivia false ('/' :: '/' :: (body ++ '\n' :: (gap ++ more))) =
        ('/' :: (splitTrivia true ('/' :: (body ++ '\n' :: (gap ++ more)))).1,
          (splitTrivia true ('/' :: (body ++ '\n' :: (gap ++ more)))).2) := rfl
    have hslash : '\n' ∉ '/' :: body := by simpa using hbody
    have hbehind := splitTrivia_comment hslash (gap ++ more)
    rw [List.cons_append] at hbehind
    rw [List.cons_append, List.cons_append, List.append_assoc, List.cons_append, hopen, hbehind, ih]
    simp [runOn]

end Lexis

open Lexis Text

/-! ## Scripts -/

/-- A kind and one of its texts. -/
structure Lexeme where
  kind : Kind
  text : List Char
  valid : IsLexeme kind text

/-- What may stand between two lexemes. -/
structure Separator where
  text : List Char
  filler : Filler text
  /-- It starts with a blank. -/
  starts : ∃ c others, text = c :: others ∧ isBlank c = true

/-- The token that a lexeme makes on a line. -/
def Lexeme.token (lexeme : Lexeme) (line : Nat) : Token :=
  ⟨lexeme.kind, String.ofList lexeme.text, line⟩

/-- Lexemes in order, with a separator between any two neighbours. -/
inductive Script where
  | empty
  | start (first : Lexeme) (others : List (Separator × Lexeme))

namespace Script

/-- The text of lexemes that have a separator in front of each. -/
def textBehind (others : List (Separator × Lexeme)) : List Char :=
  others.flatMap fun entry => entry.1.text ++ entry.2.text

/-- The script as it is written out. -/
def text : Script → List Char
  | empty => []
  | start first others => first.text ++ textBehind others

def lexemes : Script → List Lexeme
  | empty => []
  | start first others => first :: others.map Prod.snd

/-- The separators; the one with index `i` stands right behind the lexeme with index `i`. -/
def separators : Script → List Separator
  | empty => []
  | start _ others => others.map Prod.fst

/-- How many newlines there are in separators. -/
def newlines (separators : List Separator) : Nat := (separators.flatMap Separator.text).count '\n'

theorem newlines_cons (separator : Separator) (separators : List Separator) :
    newlines (separator :: separators) = separator.text.count '\n' + newlines separators := by
  rw [newlines, List.flatMap_cons, List.count_append]
  rfl

/-- What stands behind a lexeme does not prolong it. -/
theorem endsBefore_textBehind (lexeme : Lexeme) (others : List (Separator × Lexeme)) :
    ∀ c, (textBehind others).head? = some c → EndsBefore lexeme.kind lexeme.text c := by
  intro c hc
  cases others with
  | nil => cases hc
  | cons entry others =>
    obtain ⟨⟨_, _, d, gap, rfl, hblank⟩, _⟩ := entry
    cases hc
    exact endsBefore_of_isBlank hblank _ _

/-- **Lexemes with separators between them are read back one by one**, from any line on. -/
theorem dissects (first : Lexeme) (others : List (Separator × Lexeme)) (line : Nat) :
    ∃ pieces, Dissects line (first.text ++ textBehind others) pieces ∧
      pieces.map Piece.item =
        (first :: others.map Prod.snd).mapIdx
            (fun i lexeme =>
              .token (lexeme.token (line + newlines ((others.map Prod.fst).take i)))) ++
          [.token (.endOfFile (line + newlines (others.map Prod.fst)))] := by
  induction others generalizing first line with
  | nil =>
    have hreads := readsAs first.valid (endsBefore_textBehind first [])
    have hfinish : Dissects line [] _ := .finish rfl
    exact ⟨_, hreads.dissects hfinish, rfl⟩
  | cons entry others ih =>
    have hreads := readsAs first.valid (endsBefore_textBehind first (entry :: others))
    obtain ⟨separator, second⟩ := entry
    obtain ⟨pieces, hpieces, hitems⟩ := ih second (line + separator.text.count '\n')
    -- the separator is the gap in front of the second lexeme
    obtain ⟨joined, hjoined, hmap⟩ :=
      hpieces.behind_gap (separator.filler.splitTrivia_append (second.text ++ textBehind others))
    rw [← List.append_assoc] at hjoined
    refine ⟨_, hreads.dissects hjoined, ?_⟩
    rw [List.map_cons, hmap, hitems]
    simp only [List.map_cons, List.mapIdx_cons, List.take_zero, List.take_succ_cons, newlines_cons,
      Nat.add_assoc, List.cons_append]
    rfl

/-- The line of the lexeme with index `i`. -/
def line (script : Script) (i : Nat) : Nat := 1 + newlines (script.separators.take i)

/-- **Scanning undoes writing.**  A script is scanned without an error into its lexemes, in order, each
    with its kind and on the line that the newlines of the separators in front of it make; and then
    the end token. -/
theorem scan_text (script : Script) :
    Scanner.scan (String.ofList script.text) =
      script.lexemes.mapIdx (fun i lexeme => .token (lexeme.token (script.line i))) ++
        [.token (.endOfFile (script.line script.separators.length))] := by
  cases script with
  | empty => decide +kernel
  | start first others =>
    obtain ⟨pieces, hpieces, hitems⟩ := dissects first others 1
    have hsource : Dissects 1 (String.ofList (start first others).text).toList pieces := by
      rw [String.toList_ofList]
      exact hpieces
    rw [Scanner.scan_of_dissects hsource, hitems, line, List.take_length]
    rfl

/-- One space. -/
def space : Separator where
  text := [' ']
  filler := .blank (by decide +kernel) .nil
  starts := ⟨' ', [], rfl, by decide +kernel⟩

/-- A comment that looks like an operator, with the newline that ends it. -/
def aside : Separator where
  text := [' ', '/', '/', ':', '=', '\n']
  filler := .blank (by decide +kernel) (@Filler.comment [':', '='] [] (by decide) .nil)
  starts := ⟨' ', _, rfl, by decide +kernel⟩

/-- A name, an operator, a string literal that looks like a comment, a comment, a reserved word and a
    number. -/
def mixed : Script :=
  .start ⟨.identifier, ['é'], ⟨'é', [], rfl, by decide +kernel, by simp⟩, by decide⟩
    [(space, ⟨.assign, [':', '='], rfl⟩),
     (space, ⟨.string, ['"', '/', '/', '"'], ['/', '/'], rfl, by simp⟩),
     (aside, ⟨.printWord, ['P', 'R', 'I', 'N', 'T'], rfl⟩),
     (space, ⟨.number, ['3', '.', '5'], ['3'], ['.', '5'], [], rfl, isDigits_cons rfl [],
       Or.inr ⟨['5'], rfl, isDigits_cons rfl []⟩, Or.inl rfl⟩)]

/-- Nothing in it prolongs anything else, and the comment's newline is counted. -/
theorem scan_text_mixed :
    String.ofList mixed.text = "é := \"//\" //:=\nPRINT 3.5" ∧
      Scanner.scan (String.ofList mixed.text) =
        [.token ⟨.identifier, "é", 1⟩, .token ⟨.assign, ":=", 1⟩, .token ⟨.string, "\"//\"", 1⟩,
         .token ⟨.printWord, "PRINT", 2⟩, .token ⟨.number, "3.5", 2⟩, .token (.endOfFile 2)] := by
  refine ⟨by decide +kernel, ?_⟩
  rw [scan_text mixed]
  decide +kernel

end Script

end CalcFrontEnd
