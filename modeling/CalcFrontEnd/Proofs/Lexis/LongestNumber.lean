/-
  NUMBERS BY LONGEST MATCH — what a scanner makes of a text that starts with a digit.

  1. **Specification** — said without the scanner.  `LongestFront P text front` is longest match against any
     class of texts, and `NumberAt text lexeme` is a longest number that does not break off: behind it
     stands no point that it could have taken, and no `e` or `E`.  `GivenUp` says which characters behind
     the mantissa are lost where no such number stands.

  2. **The crux (`cut_of_longest`)** — there always is a longest number in front, since the digits are one.
     What comes next decides between the three ends: the number itself, a point with no digit behind it,
     or an exponent with none.  In the latter two the longest number is also the longest mantissa, as a
     digit in the right place would make a longer one.

  3. **Result** — `next_number`.  Longest front parts are unique, so the converse comes for free.
-/
import CalcFrontEnd.Proofs.Lexis.Printing

namespace CalcFrontEnd

namespace Lexis

open Text

/-! ## Longest match -/

/-- `LongestFront P text front` — no front part of the text that is in the class is longer. -/
structure LongestFront (P : List Char → Prop) (text front : List Char) : Prop where
  starts : front <+: text
  holds : P front
  longest : ∀ other, other <+: text → P other → other.length ≤ front.length

namespace LongestFront

variable {P : List Char → Prop} {text front : List Char}

theorem unique (h : LongestFront P text front) {other : List Char}
    (h' : LongestFront P text other) : front = other := by
  have hle := h'.longest front h.starts h.holds
  have hge := h.longest other h'.starts h'.holds
  have hfront := List.prefix_of_prefix_length_le h.starts h'.starts hle
  exact hfront.eq_of_length_le hge

/-- What is behind a longest front part does not make a longer one. -/
theorem not_append {more behind : List Char} (h : LongestFront P (front ++ (more ++ behind)) front)
    (hne : more ≠ []) : ¬P (front ++ more) := by
  intro hmore
  have hle := h.longest (front ++ more) ⟨behind, List.append_assoc _ _ _⟩ hmore
  have hpos := List.length_pos_iff.mpr hne
  rw [List.length_append] at hle
  omega

/-- In a smaller class that it belongs to it is the longest as well. -/
theorem of_imp {Q : List Char → Prop} (h : LongestFront P text front) (hQ : Q front)
    (himp : ∀ other, Q other → P other) : LongestFront Q text front :=
  ⟨h.starts, hQ, fun other hother hin => h.longest other hother (himp other hin)⟩

end LongestFront

/-- Where some front part is in the class, a longest one is. -/
theorem exists_longestFront {P : List Char → Prop} {text front : List Char} (hfront : front <+: text)
    (h : P front) : ∃ longest, LongestFront P text longest := by
  -- as long as there is a longer one, go on with that
  by_cases hlonger : ∃ other, other <+: text ∧ P other ∧ front.length < other.length
  · obtain ⟨other, hother, hin, hlt⟩ := hlonger
    have hle := hother.length_le
    exact exists_longestFront hother hin
  · refine ⟨front, hfront, h, ?_⟩
    intro other hother hin
    rcases Nat.lt_or_ge front.length other.length with hlt | hge
    · exact absurd ⟨other, hother, hin, hlt⟩ hlonger
    · exact hge
termination_by text.length - front.length

/-! ## Numbers and their parts -/

/-- Digits and a fraction. -/
def IsMantissa (text : List Char) : Prop :=
  ∃ whole fraction, text = whole ++ fraction ∧ IsDigits whole ∧ IsFraction fraction

theorem isDigits_singleton {d : Char} (hd : d.isDigit = true) : IsDigits [d] :=
  isDigits_cons hd []

theorem IsDigits.append {front back : List Char} (h : IsDigits front) (h' : IsDigits back) :
    IsDigits (front ++ back) := by
  refine ⟨by simp [h.1], ?_⟩
  intro c hc
  exact (List.mem_append.mp hc).elim (h.2 c) (h'.2 c)

theorem IsMantissa.isNumber {text : List Char} (h : IsMantissa text) : IsNumber text := by
  obtain ⟨whole, fraction, rfl, hwhole, hfraction⟩ := h
  exact ⟨whole, fraction, [], by rw [List.append_nil], hwhole, hfraction, Or.inl rfl⟩

/-- A number without an exponent is a mantissa. -/
theorem IsNumber.isMantissa {text : List Char} (h : IsNumber text) (hnone : ¬HasExponent text) :
    IsMantissa text := by
  obtain ⟨whole, fraction, exponent, rfl, hwhole, hfraction, hexponent⟩ := h
  rcases hexponent with rfl | ⟨mark, sign, digits, rfl, hmark, -⟩
  · exact ⟨whole, fraction, by rw [List.append_nil], hwhole, hfraction⟩
  · refine absurd ?_ hnone
    rcases hmark with rfl | rfl
    · exact Or.inl (by simp)
    · exact Or.inr (by simp)

/-- A number without a point and an exponent is digits. -/
theorem IsNumber.isDigits {text : List Char} (h : IsNumber text) (hpoint : '.' ∉ text)
    (hnone : ¬HasExponent text) : IsDigits text := by
  obtain ⟨whole, fraction, rfl, hwhole, hfraction⟩ := h.isMantissa hnone
  rcases hfraction with rfl | ⟨digits, rfl, -⟩
  · rw [List.append_nil]
    exact hwhole
  · exact absurd (by simp) hpoint

/-- One more digit makes a longer number. -/
theorem IsNumber.snoc {text : List Char} (h : IsNumber text) {d : Char} (hd : d.isDigit = true) :
    IsNumber (text ++ [d]) := by
  have hone := isDigits_singleton hd
  obtain ⟨whole, fraction, exponent, rfl, hwhole, hfraction, hexponent⟩ := h
  rcases hexponent with rfl | ⟨mark, sign, digits, rfl, hmark, hsign, hdigits⟩
  · rcases hfraction with rfl | ⟨digits, rfl, hdigits⟩
    · exact ⟨whole ++ [d], [], [], by simp, hwhole.append hone, Or.inl rfl, Or.inl rfl⟩
    · exact ⟨whole, '.' :: (digits ++ [d]), [], by simp, hwhole,
        Or.inr ⟨_, rfl, hdigits.append hone⟩, Or.inl rfl⟩
  · exact ⟨whole, fraction, mark :: (sign ++ (digits ++ [d])), by simp, hwhole, hfraction,
      Or.inr ⟨mark, sign, _, rfl, hmark, hsign, hdigits.append hone⟩⟩

/-- A point and a digit behind digits make a longer number. -/
theorem IsDigits.number_point {text : List Char} (h : IsDigits text) {d : Char}
    (hd : d.isDigit = true) : IsNumber (text ++ ['.', d]) :=
  ⟨text, ['.', d], [], by simp, h, Or.inr ⟨[d], rfl, isDigits_singleton hd⟩, Or.inl rfl⟩

/-- An exponent behind a mantissa makes a longer number. -/
theorem IsMantissa.number_exponent {text sign : List Char} (h : IsMantissa text) {mark d : Char}
    (hmark : mark = 'e' ∨ mark = 'E') (hsign : sign = [] ∨ sign = ['+'] ∨ sign = ['-'])
    (hd : d.isDigit = true) : IsNumber (text ++ mark :: (sign ++ [d])) := by
  obtain ⟨whole, fraction, rfl, hwhole, hfraction⟩ := h
  exact ⟨whole, fraction, mark :: (sign ++ [d]), List.append_assoc _ _ _, hwhole, hfraction,
    Or.inr ⟨mark, sign, [d], rfl, hmark, hsign, isDigits_singleton hd⟩⟩

/-! ## Numbers that break off, and what is lost with them -/

/-- `Settled lexeme behind` — the number does not break off: if it is digits only, no point comes next,
    and if it has no exponent, no `e` or `E`. -/
def Settled (lexeme behind : List Char) : Prop :=
  (IsDigits lexeme → behind.head? ≠ some '.') ∧
    (¬HasExponent lexeme → behind.head? ≠ some 'e' ∧ behind.head? ≠ some 'E')

/-- A number breaks off at a point or at an exponent's mark. -/
theorem breaks_of_not_settled {lexeme behind : List Char} (h : ¬Settled lexeme behind) :
    IsDigits lexeme ∧ (∃ rest, behind = '.' :: rest) ∨
      ¬HasExponent lexeme ∧ ∃ mark rest, (mark = 'e' ∨ mark = 'E') ∧ behind = mark :: rest := by
  rcases Classical.not_and_iff_not_or_not.mp h with hpoint | hmark
  · obtain ⟨hdigits, hpoint⟩ := Classical.not_imp.mp hpoint
    exact Or.inl ⟨hdigits, List.head?_eq_some_iff.mp (Classical.not_not.mp hpoint)⟩
  · obtain ⟨hnone, hmark⟩ := Classical.not_imp.mp hmark
    refine Or.inr ⟨hnone, ?_⟩
    rcases Classical.not_and_iff_not_or_not.mp hmark with hmark | hmark
    · obtain ⟨rest, hrest⟩ := List.head?_eq_some_iff.mp (Classical.not_not.mp hmark)
      exact ⟨'e', rest, Or.inl rfl, hrest⟩
    · obtain ⟨rest, hrest⟩ := List.head?_eq_some_iff.mp (Classical.not_not.mp hmark)
      exact ⟨'E', rest, Or.inr rfl, hrest⟩

/-- `NumberAt text lexeme` — the lexeme is the longest number in front of the text, and does not break
    off. -/
def NumberAt (text lexeme : List Char) : Prop :=
  LongestFront IsNumber text lexeme ∧ Settled lexeme (text.drop lexeme.length)

/-- Only the longest number in front of a text can be the one that does not break off. -/
theorem numberAt_iff {longest behind : List Char} (h : LongestFront IsNumber (longest ++ behind) longest)
    {lexeme : List Char} :
    NumberAt (longest ++ behind) lexeme ↔ lexeme = longest ∧ Settled longest behind := by
  constructor
  · rintro ⟨hlexeme, hsettled⟩
    obtain rfl := hlexeme.unique h
    rw [List.drop_left] at hsettled
    exact ⟨rfl, hsettled⟩
  · rintro ⟨rfl, hsettled⟩
    refine ⟨h, ?_⟩
    rw [List.drop_left]
    exact hsettled

/-- `GivenUp mantissa behind lost` — of what stands behind the mantissa, `lost` is given up with it: behind
    digits the point and one character, if there is one; else the `e` or `E`, the sign, if there is one,
    and the character that comes next, if it is alphabetic. -/
inductive GivenUp : List Char → List Char → List Char → Prop where
  | point {whole behind : List Char} (hwhole : IsDigits whole) :
      GivenUp whole ('.' :: behind) ('.' :: behind.take 1)
  | exponent {mantissa sign behind : List Char} {mark : Char} (hmark : mark = 'e' ∨ mark = 'E')
      (hsign : sign = ['+'] ∨ sign = ['-'] ∨
        sign = [] ∧ behind.head? ≠ some '+' ∧ behind.head? ≠ some '-') :
      GivenUp mantissa (mark :: (sign ++ behind))
        (mark :: (sign ++ (behind.take 1).filter isAlphabetic))

/-- A sign is found exactly if one stands in front. -/
theorem signOf_spec (text : List Char) :
    signOf text = ['+'] ∨ signOf text = ['-'] ∨
      signOf text = [] ∧ (text.drop (signOf text).length).head? ≠ some '+' ∧
        (text.drop (signOf text).length).head? ≠ some '-' := by
  cases text with
  | nil => exact Or.inr (Or.inr ⟨rfl, (nomatch ·), (nomatch ·)⟩)
  | cons c text =>
    by_cases hplus : c = '+'
    · subst hplus
      exact Or.inl rfl
    · by_cases hminus : c = '-'
      · subst hminus
        exact Or.inr (Or.inl rfl)
      · have hnone : signOf (c :: text) = [] := if_neg (not_or.mpr ⟨hplus, hminus⟩)
        rw [hnone]
        exact Or.inr (Or.inr ⟨rfl, by simpa using hplus, by simpa using hminus⟩)

/-! ## What is cut off -/

/-- A point without a digit behind it. -/
theorem cutFraction_lost {whole behind : List Char}
    (hdigit : ∀ d, behind.head? = some d → d.isDigit = false) :
    cutFraction whole ('.' :: behind) =
      ⟨.fault .invalidNumber, whole ++ '.' :: behind.take 1, behind.drop 1⟩ := by
  cases behind with
  | nil => rfl
  | cons d behind =>
    have hd : ¬d.isDigit = true := by simp [hdigit d rfl]
    simp only [cutFraction, if_neg hd]
    rfl

/-- An exponent without a digit behind it and its sign. -/
theorem cutExponent_lost (mantissa : List Char) {afterMark : List Char} {mark : Char}
    (hmark : mark = 'e' ∨ mark = 'E')
    (hdigit : ∀ d, (afterMark.drop (signOf afterMark).length).head? = some d → d.isDigit = false) :
    ∃ lost rest, mark :: afterMark = lost ++ rest ∧ GivenUp mantissa (mark :: afterMark) lost ∧
      cutExponent mantissa (mark :: afterMark) = ⟨.fault .invalidNumber, mantissa ++ lost, rest⟩ := by
  have happ := signOf_append_drop afterMark
  have hsign := signOf_spec afterMark
  simp only [cutExponent, if_pos hmark]
  generalize signOf afterMark = sign at *
  generalize afterMark.drop sign.length = behind at *
  subst happ
  have hlost : GivenUp mantissa (mark :: (sign ++ behind)) _ := .exponent hmark hsign
  cases behind with
  | nil => exact ⟨_, [], by simp, hlost, by simp⟩
  | cons d behind =>
    have hd : ¬d.isDigit = true := by simp [hdigit d rfl]
    by_cases halphabetic : isAlphabetic d = true
    · exact ⟨_, behind, by simp [halphabetic], hlost, by simp [hd, halphabetic]⟩
    · exact ⟨_, d :: behind, by simp [halphabetic], hlost, by simp [hd, halphabetic]⟩

/-- A mantissa in front of an exponent's mark is taken as a whole. -/
theorem cut_mantissa {c mark : Char} {mantissa behind : List Char} (h : IsMantissa (c :: mantissa))
    (hmark : mark = 'e' ∨ mark = 'E') :
    cut c (mantissa ++ mark :: behind) = cutExponent (c :: mantissa) (mark :: behind) := by
  have hdigit : ∀ d, (mark :: behind).head? = some d → d.isDigit = false := by
    rintro d ⟨⟩
    rcases hmark with rfl | rfl <;> decide
  have hpoint : (mark :: behind).head? ≠ some '.' := by
    rcases hmark with rfl | rfl <;> exact fun heq => absurd (Option.some.inj heq) (by decide)
  obtain ⟨whole, fraction, htext, hwhole, hfraction⟩ := h
  obtain ⟨first, digits, rfl⟩ := List.exists_cons_of_ne_nil hwhole.1
  rw [List.cons_append] at htext
  obtain ⟨rfl, rfl⟩ := List.cons.inj htext
  have hbehind : ∀ d, (fraction ++ mark :: behind).head? = some d → d.isDigit = false := by
    rcases hfraction with rfl | ⟨others, rfl, -⟩
    · exact hdigit
    · rintro d ⟨⟩
      decide
  rw [List.append_assoc, cut_digits hwhole hbehind,
    cutFraction_mantissa hfraction hdigit fun _ => hpoint]
  rfl

section

variable {c : Char} {text lexeme behind : List Char}

/-- A longest number that does not break off is cut off as it stands. -/
theorem cut_of_settled (h : LongestFront IsNumber (c :: text) lexeme)
    (htext : c :: text = lexeme ++ behind) (hsettled : Settled lexeme behind) :
    cut c text = ⟨.token .number, lexeme, behind⟩ := by
  have hends : ∀ next, behind.head? = some next → EndsBefore .number lexeme next := by
    intro next hnext
    obtain ⟨rest, rfl⟩ := List.head?_eq_some_iff.mp hnext
    refine ⟨?_, ?_, ?_⟩
    · cases hdigit : next.isDigit with
      | false => rfl
      | true =>
        have hlongest : LongestFront IsNumber (lexeme ++ ([next] ++ rest)) lexeme := htext ▸ h
        exact absurd (h.holds.snoc hdigit) (hlongest.not_append (List.cons_ne_nil _ _))
    · rintro hpoint hnone rfl
      exact hsettled.1 (h.holds.isDigits hpoint hnone) rfl
    · intro hnone
      constructor
      · rintro rfl
        exact (hsettled.2 hnone).1 rfl
      · rintro rfl
        exact (hsettled.2 hnone).2 rfl
  obtain ⟨first, others, rfl, -, -, hcut⟩ := readsAs_number h.holds hends
  rw [List.cons_append] at htext
  obtain ⟨rfl, rfl⟩ := List.cons.inj htext
  exact hcut

/-- Digits that break off at a point: no digit can stand behind it. -/
theorem cut_of_point (h : LongestFront IsNumber (c :: text) lexeme)
    (htext : c :: text = lexeme ++ '.' :: behind) (hdigits : IsDigits lexeme) :
    cut c text = ⟨.fault .invalidNumber, lexeme ++ '.' :: behind.take 1, behind.drop 1⟩ := by
  have hdigit : ∀ d, behind.head? = some d → d.isDigit = false := by
    intro d hd
    obtain ⟨rest, rfl⟩ := List.head?_eq_some_iff.mp hd
    cases hdigit : d.isDigit with
    | false => rfl
    | true =>
      have hlongest : LongestFront IsNumber (lexeme ++ (['.', d] ++ rest)) lexeme := htext ▸ h
      exact absurd (hdigits.number_point hdigit) (hlongest.not_append (List.cons_ne_nil _ _))
  have hpoint : ∀ d, ('.' :: behind).head? = some d → d.isDigit = false := by
    rintro d ⟨⟩
    decide
  obtain ⟨first, digits, rfl⟩ := List.exists_cons_of_ne_nil hdigits.1
  rw [List.cons_append] at htext
  obtain ⟨rfl, rfl⟩ := List.cons.inj htext
  rw [cut_digits hdigits hpoint, cutFraction_lost hdigit]

/-- A mantissa that breaks off at an exponent's mark: no digit can stand behind that and its sign. -/
theorem cut_of_mark {mark : Char} (h : LongestFront IsNumber (c :: text) lexeme)
    (htext : c :: text = lexeme ++ mark :: behind) (hmantissa : IsMantissa lexeme)
    (hmark : mark = 'e' ∨ mark = 'E') :
    ∃ lost rest, mark :: behind = lost ++ rest ∧ GivenUp lexeme (mark :: behind) lost ∧
      cut c text = ⟨.fault .invalidNumber, lexeme ++ lost, rest⟩ := by
  have hdigit : ∀ d, (behind.drop (signOf behind).length).head? = some d → d.isDigit = false := by
    intro d hd
    obtain ⟨rest, hrest⟩ := List.head?_eq_some_iff.mp hd
    cases hdigit : d.isDigit with
    | false => rfl
    | true =>
      have hlonger := hmantissa.number_exponent hmark (signOf_cases behind) hdigit
      have hsplit : mark :: behind = (mark :: (signOf behind ++ [d])) ++ rest := by
        have happ := signOf_append_drop behind
        rw [hrest] at happ
        rw [List.cons_append, List.append_assoc, List.singleton_append, happ]
      rw [htext, hsplit] at h
      exact absurd hlonger (h.not_append (List.cons_ne_nil _ _))
  obtain ⟨lost, rest, hlost, hgiven, hcut⟩ := cutExponent_lost lexeme hmark hdigit
  refine ⟨lost, rest, hlost, hgiven, ?_⟩
  obtain ⟨whole, fraction, rfl, hwhole, hfraction⟩ := hmantissa
  obtain ⟨first, digits, rfl⟩ := List.exists_cons_of_ne_nil hwhole.1
  rw [List.cons_append, List.cons_append] at htext
  obtain ⟨rfl, rfl⟩ := List.cons.inj htext
  rw [← hcut]
  exact cut_mantissa ⟨_, fraction, rfl, hwhole, hfraction⟩ hmark

/-- **The longest number in front of a text decides**: it is cut off if it does not break off, and else
    it is a mantissa, with which some more is given up. -/
theorem cut_of_longest (h : LongestFront IsNumber (c :: text) lexeme)
    (htext : c :: text = lexeme ++ behind) :
    Settled lexeme behind ∧ cut c text = ⟨.token .number, lexeme, behind⟩ ∨
      ¬Settled lexeme behind ∧ IsMantissa lexeme ∧
        ∃ lost rest, behind = lost ++ rest ∧ GivenUp lexeme behind lost ∧
          cut c text = ⟨.fault .invalidNumber, lexeme ++ lost, rest⟩ := by
  by_cases hsettled : Settled lexeme behind
  · exact Or.inl ⟨hsettled, cut_of_settled h htext hsettled⟩
  · refine Or.inr ⟨hsettled, ?_⟩
    rcases breaks_of_not_settled hsettled with ⟨hdigits, rest, rfl⟩ | ⟨hnone, mark, rest, hmark, rfl⟩
    · have hmantissa : IsMantissa lexeme := ⟨lexeme, [], (List.append_nil _).symm, hdigits, Or.inl rfl⟩
      have hsplit : '.' :: rest = '.' :: rest.take 1 ++ rest.drop 1 := by
        rw [List.cons_append, List.take_append_drop]
      exact ⟨hmantissa, _, _, hsplit, .point hdigits, cut_of_point h htext hdigits⟩
    · have hmantissa := h.holds.isMantissa hnone
      exact ⟨hmantissa, cut_of_mark h htext hmantissa hmark⟩

end

end Lexis

namespace Scanner

open Lexis Text

/-- In front of a digit no trivia stand, so the next item is what is cut off there. -/
theorem next_of_digit {s : Scanner} {c : Char} {text : List Char} (hrest : s.rest = c :: text)
    (hc : c.isDigit = true) :
    s.next = ((cut c text).item s.line, { s with rest := (cut c text).rest }) := by
  have hblank : isBlank c = false := isBlank_of_isWordPart (isWordPart_of_isDigit hc)
  have hslash : c ≠ '/' := ne_of_class hc (by decide)
  have hsplit : splitTrivia false s.rest = ([], c :: text) := by
    rw [hrest]
    simp [splitTrivia, hblank, hslash]
  rw [next_of_cons hsplit]
  rfl

/-- In front of a digit the longest number decides on the next item. -/
theorem next_of_longest {s : Scanner} {c : Char} {text longest behind : List Char}
    (hrest : s.rest = c :: text) (hc : c.isDigit = true) (h : LongestFront IsNumber s.rest longest)
    (htext : s.rest = longest ++ behind) :
    Settled longest behind ∧
        s.next = (.token ⟨.number, String.ofList longest, s.line⟩, s.skip longest.length) ∨
      ¬Settled longest behind ∧ IsMantissa longest ∧ ∃ lost, GivenUp longest behind lost ∧
        s.next = (.error ⟨.invalidNumber, String.ofList (trimEnd (longest ++ lost)), s.line⟩,
          s.skip (longest ++ lost).length) := by
  have hskip : ∀ lost rest, behind = lost ++ rest →
      s.skip (longest ++ lost).length = { s with rest := rest } := by
    rintro lost rest rfl
    show { s with rest := s.rest.drop (longest ++ lost).length } = _
    rw [htext, ← List.append_assoc, List.drop_left]
  rcases cut_of_longest (hrest ▸ h) (hrest ▸ htext) with
    ⟨hsettled, hcut⟩ | ⟨hnot, hmantissa, lost, rest, hbehind, hlost, hcut⟩
  · have hwhole := hskip [] behind rfl
    rw [List.append_nil] at hwhole
    refine Or.inl ⟨hsettled, ?_⟩
    rw [next_of_digit hrest hc, hcut, hwhole]
    rfl
  · refine Or.inr ⟨hnot, hmantissa, lost, hlost, ?_⟩
    rw [next_of_digit hrest hc, hcut, hskip lost rest hbehind]
    rfl

/-- **Numbers are scanned by longest match.**  In front of a digit the next item is a number with a
    lexeme exactly if that is the longest number there and does not break off; then nothing else is
    consumed.  Otherwise it is an invalid number, and the longest mantissa is consumed with the
    characters that are given up behind it. -/
theorem next_number {s : Scanner} {c : Char} {text : List Char} (hrest : s.rest = c :: text)
    (hc : c.isDigit = true) :
    (∀ lexeme, ((∃ line, s.next.1 = .token ⟨.number, String.ofList lexeme, line⟩) ↔
        NumberAt s.rest lexeme) ∧
      (NumberAt s.rest lexeme →
        s.next = (.token ⟨.number, String.ofList lexeme, s.line⟩, s.skip lexeme.length))) ∧
    ((¬∃ lexeme, NumberAt s.rest lexeme) → ∃ mantissa behind lost,
      s.rest = mantissa ++ behind ∧ LongestFront IsMantissa s.rest mantissa ∧
      GivenUp mantissa behind lost ∧
      s.next = (.error ⟨.invalidNumber, String.ofList (trimEnd (mantissa ++ lost)), s.line⟩,
        s.skip (mantissa ++ lost).length)) := by
  have hfirst : [c] <+: s.rest := ⟨text, hrest.symm⟩
  have hdigits : IsMantissa [c] := ⟨[c], [], rfl, isDigits_singleton hc, Or.inl rfl⟩
  obtain ⟨longest, hlongest⟩ := exists_longestFront hfirst hdigits.isNumber
  obtain ⟨behind, htext⟩ := hlongest.starts
  have hnumber : ∀ lexeme, NumberAt s.rest lexeme ↔ lexeme = longest ∧ Settled longest behind := by
    intro lexeme
    rw [← htext]
    exact numberAt_iff (htext ▸ hlongest)
  rcases next_of_longest hrest hc hlongest htext.symm with
    ⟨hsettled, hnext⟩ | ⟨hnot, hmantissa, lost, hlost, hnext⟩
  · refine ⟨?_, fun hnone => absurd ⟨longest, (hnumber longest).mpr ⟨rfl, hsettled⟩⟩ hnone⟩
    intro lexeme
    rw [hnumber, hnext]
    constructor
    · constructor
      · rintro ⟨line, hitem⟩
        have hlexeme := congrArg Token.lexeme (Item.token.inj hitem)
        exact ⟨(String.ofList_injective hlexeme).symm, hsettled⟩
      · rintro ⟨rfl, -⟩
        exact ⟨s.line, rfl⟩
    · rintro ⟨rfl, -⟩
      rfl
  · constructor
    · intro lexeme
      rw [hnumber, hnext]
      refine ⟨⟨?_, fun h => absurd h.2 hnot⟩, fun h => absurd h.2 hnot⟩
      rintro ⟨line, hitem⟩
      cases hitem
    · intro _
      exact ⟨longest, behind, lost, htext.symm,
        hlongest.of_imp hmantissa fun _ => IsMantissa.isNumber, hlost, hnext⟩

/-- A fraction with a faulty exponent: the sign and the letter behind it are lost, and no more. -/
theorem next_number_faultyExponent :
    (ofText "1.5e+x2").rest = '1' :: ".5e+x2".toList ∧ '1'.isDigit = true ∧
      ∃ mantissa behind lost, (ofText "1.5e+x2").rest = mantissa ++ behind ∧
        LongestFront IsMantissa (ofText "1.5e+x2").rest mantissa ∧ GivenUp mantissa behind lost ∧
        String.ofList (trimEnd (mantissa ++ lost)) = "1.5e+x" ∧
        (ofText "1.5e+x2").skip (mantissa ++ lost).length = ⟨['2'], 1, false⟩ := by
  have hrest : (ofText "1.5e+x2").rest = '1' :: ".5e+x2".toList := by decide +kernel
  have hnext : (ofText "1.5e+x2").next = (.error ⟨.invalidNumber, "1.5e+x", 1⟩, ⟨['2'], 1, false⟩) := by
    decide +kernel
  obtain ⟨hnumber, hfault⟩ := next_number hrest (by decide)
  have hnone : ¬∃ lexeme, NumberAt (ofText "1.5e+x2").rest lexeme := by
    rintro ⟨lexeme, hlexeme⟩
    have hread := (hnumber lexeme).2 hlexeme
    rw [hnext] at hread
    cases hread
  obtain ⟨mantissa, behind, lost, hsplit, hlongest, hlost, hread⟩ := hfault hnone
  rw [hnext] at hread
  obtain ⟨hitem, hskip⟩ := Prod.mk.inj hread
  exact ⟨hrest, by decide, mantissa, behind, lost, hsplit, hlongest, hlost,
    (congrArg LexicalError.text (Item.error.inj hitem)).symm, hskip.symm⟩

end Scanner

end CalcFrontEnd
