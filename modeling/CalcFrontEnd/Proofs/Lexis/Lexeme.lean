/-
  LEXEMES — which texts the tokens of a kind are written with.

  1. **Specification** — `IsLexeme kind text`, said without the scanner: a word, a number or a string
     literal by its shape, a reserved word or an operator by its one spelling.  The end token and the
     marker have no text at all.

  2. **Result** — `isLexeme_cut`: the span of a cut that reads a token of a kind is a lexeme of the
     kind.

  3. **Facts** — no lexeme holds a newline (`IsLexeme.newline_not_mem`).
-/
import CalcFrontEnd.Lexis.Cut

namespace CalcFrontEnd.Lexis

open Text

/-! ## Shapes -/

/-- One digit or more. -/
def IsDigits (text : List Char) : Prop := text ≠ [] ∧ ∀ c ∈ text, c.isDigit = true

/-- Nothing, or a point with digits behind it. -/
def IsFraction (text : List Char) : Prop :=
  text = [] ∨ ∃ digits, text = '.' :: digits ∧ IsDigits digits

/-- Nothing, or `e` or `E` with digits behind it that may have a sign. -/
def IsExponent (text : List Char) : Prop :=
  text = [] ∨ ∃ mark sign digits, text = mark :: (sign ++ digits) ∧ (mark = 'e' ∨ mark = 'E') ∧
    (sign = [] ∨ sign = ['+'] ∨ sign = ['-']) ∧ IsDigits digits

/-- Digits, a fraction and an exponent. -/
def IsNumber (text : List Char) : Prop :=
  ∃ whole fraction exponent, text = whole ++ (fraction ++ exponent) ∧ IsDigits whole ∧
    IsFraction fraction ∧ IsExponent exponent

/-- Quotes around anything but quotes and newlines. -/
def IsString (text : List Char) : Prop :=
  ∃ body, text = '"' :: (body ++ ['"']) ∧ ∀ c ∈ body, c ≠ '"' ∧ c ≠ '\n'

/-- A letter or underscore, with letters, numerals and underscores behind it. -/
def IsWord (text : List Char) : Prop :=
  ∃ c rest, text = c :: rest ∧ isWordStart c = true ∧ ∀ d ∈ rest, isWordPart d = true

/-- The texts of a kind. -/
def IsLexeme (kind : Kind) (text : List Char) : Prop :=
  match kind with
  | .identifier => IsWord text ∧ ∀ word ∈ Kind.reserved, word.spelling? ≠ some text
  | .number => IsNumber text
  | .string => IsString text
  | kind => kind.spelling? = some text

/-- The end token and the marker have no lexeme. -/
theorem IsLexeme.kind_ne {kind : Kind} {text : List Char} (h : IsLexeme kind text) :
    kind ≠ .endOfFile ∧ kind ≠ .error := by
  constructor
  · rintro rfl
    cases h
  · rintro rfl
    cases h

/-- A kind with a spelling has that spelling as its lexeme. -/
theorem isLexeme_of_spelling {kind : Kind} {text : List Char} (h : kind.spelling? = some text) :
    IsLexeme kind text := by
  cases kind <;> first | exact h | cases h

/-! ## The span of a token is a lexeme -/

/-- What `takeWhile` takes has the property it looks for. -/
theorem forall_mem_takeWhile {p : Char → Bool} {text : List Char} :
    ∀ c ∈ text.takeWhile p, p c = true := by
  intro c hc
  exact List.all_eq_true.mp List.all_takeWhile c hc

theorem isDigits_cons {c : Char} (hc : c.isDigit = true) (text : List Char) :
    IsDigits (c :: text.takeWhile Char.isDigit) := by
  refine ⟨List.cons_ne_nil _ _, ?_⟩
  intro d hd
  rcases List.mem_cons.mp hd with rfl | hd
  · exact hc
  · exact forall_mem_takeWhile d hd

theorem cutString_token {text : List Char} {kind : Kind}
    (h : (cutString text).reading = .token kind) : IsLexeme kind (cutString text).span := by
  have hbody : ∀ c ∈ text.takeWhile isStringPart, c ≠ '"' ∧ c ≠ '\n' := by
    intro c hc
    have hpart := forall_mem_takeWhile c hc
    simpa [isStringPart] using hpart
  unfold cutString at h ⊢
  split at h
  · cases h
  · rename_i c rest heq
    split at h
    · rename_i hquote
      cases h
      simp only [if_pos hquote]
      exact ⟨_, by rw [hquote], hbody⟩
    · cases h

theorem cutWord_token {c : Char} (hc : isWordStart c = true) (text : List Char) :
    IsLexeme (Kind.ofWord (cutWord c text).span) (cutWord c text).span := by
  have hword : IsWord (cutWord c text).span := ⟨c, _, rfl, hc, forall_mem_takeWhile⟩
  unfold Kind.ofWord
  cases hfind : Kind.reserved.find? fun kind => kind.spelling? == some (cutWord c text).span with
  | none =>
    refine ⟨hword, ?_⟩
    intro word hmem hspelling
    have hnone := List.find?_eq_none.mp hfind word hmem
    exact hnone (by simp [hspelling])
  | some kind =>
    have hspelling := List.find?_some hfind
    exact isLexeme_of_spelling (by simpa using hspelling)

/-- The sign at the front of a text is none, a plus or a minus. -/
theorem signOf_cases (text : List Char) :
    signOf text = [] ∨ signOf text = ['+'] ∨ signOf text = ['-'] := by
  unfold signOf
  split
  · exact Or.inl rfl
  · split
    · rename_i hsign
      rcases hsign with rfl | rfl
      · exact Or.inr (Or.inl rfl)
      · exact Or.inr (Or.inr rfl)
    · exact Or.inl rfl

/-- What stands behind the mantissa of a number that is read is an exponent. -/
theorem cutExponent_token {mantissa text : List Char} {kind : Kind}
    (h : (cutExponent mantissa text).reading = .token kind) :
    kind = .number ∧ ∃ exponent, (cutExponent mantissa text).span = mantissa ++ exponent ∧
      IsExponent exponent := by
  unfold cutExponent at h ⊢
  split at h
  · cases h
    exact ⟨rfl, [], by simp, Or.inl rfl⟩
  · rename_i mark afterMark
    split at h
    · rename_i hmark
      simp only [if_pos hmark]
      simp only at h
      split at h
      · cases h
      · rename_i c rest heq
        split at h
        · rename_i hc
          cases h
          simp only [if_pos hc]
          refine ⟨trivial, mark :: (signOf afterMark ++ c :: rest.takeWhile Char.isDigit), by simp, ?_⟩
          exact Or.inr ⟨mark, _, _, rfl, hmark, signOf_cases afterMark, isDigits_cons hc rest⟩
        · split at h <;> cases h
    · rename_i hmark
      cases h
      simp only [if_neg hmark]
      exact ⟨trivial, [], by simp, Or.inl rfl⟩

/-- What stands behind the whole digits of a number that is read is a fraction and an exponent. -/
theorem cutFraction_token {whole text : List Char} {kind : Kind}
    (h : (cutFraction whole text).reading = .token kind) :
    kind = .number ∧ ∃ fraction exponent,
      (cutFraction whole text).span = whole ++ (fraction ++ exponent) ∧
      IsFraction fraction ∧ IsExponent exponent := by
  unfold cutFraction at h ⊢
  split at h
  · rename_i afterPoint
    split at h
    · cases h
    · rename_i c rest
      split at h
      · rename_i hc
        simp only [if_pos hc]
        obtain ⟨hkind, exponent, hspan, hexponent⟩ := cutExponent_token h
        refine ⟨hkind, '.' :: c :: rest.takeWhile Char.isDigit, exponent, ?_, ?_, hexponent⟩
        · rw [hspan, List.append_assoc]
        · exact Or.inr ⟨_, rfl, isDigits_cons hc rest⟩
      · cases h
  · obtain ⟨hkind, exponent, hspan, hexponent⟩ := cutExponent_token h
    exact ⟨hkind, [], exponent, hspan, Or.inl rfl, hexponent⟩

theorem cutNumber_token {c : Char} (hc : c.isDigit = true) {text : List Char} {kind : Kind}
    (h : (cutNumber c text).reading = .token kind) : IsLexeme kind (cutNumber c text).span := by
  obtain ⟨rfl, fraction, exponent, hspan, hfraction, hexponent⟩ := cutFraction_token h
  exact ⟨_, fraction, exponent, hspan, isDigits_cons hc text, hfraction, hexponent⟩

theorem operatorAt?_spelling {text : List Char} {kind : Kind} {spelling : List Char}
    (h : Kind.operatorAt? text = some (kind, spelling)) : kind.spelling? = some spelling := by
  obtain ⟨other, -, hother⟩ := List.exists_of_findSome?_eq_some h
  split at hother
  · rename_i heq
    split at hother
    · cases hother
      exact heq
    · cases hother
  · cases hother

theorem cutOperator_token {text : List Char} {kind : Kind}
    (h : (cutOperator text).reading = .token kind) : IsLexeme kind (cutOperator text).span := by
  unfold cutOperator at h ⊢
  split at h
  · rename_i other spelling heq
    cases h
    exact isLexeme_of_spelling (operatorAt?_spelling heq)
  · cases h

/-- **The span of a token is a lexeme of its kind.** -/
theorem isLexeme_cut {c : Char} {text : List Char} {kind : Kind}
    (h : (cut c text).reading = .token kind) : IsLexeme kind (cut c text).span := by
  unfold cut at h ⊢
  split at h
  · rename_i hc
    simp only [if_pos hc]
    exact cutString_token h
  · rename_i hquote
    rw [if_neg hquote]
    split at h
    · rename_i hc
      rw [if_pos hc]
      cases h
      exact cutWord_token hc text
    · rename_i hword
      rw [if_neg hword]
      split at h
      · rename_i hc
        rw [if_pos hc]
        exact cutNumber_token hc h
      · rename_i hdigit
        rw [if_neg hdigit]
        split at h
        · cases h
        · rename_i hpoint
          rw [if_neg hpoint]
          exact cutOperator_token h

/-! ## No lexeme breaks its line -/

theorem IsDigits.newline_not_mem {text : List Char} (h : IsDigits text) : '\n' ∉ text := by
  intro hmem
  exact absurd (h.2 _ hmem) (by decide)

/-- The characters of a number. -/
theorem IsNumber.mem_cases {text : List Char} (h : IsNumber text) :
    ∀ c ∈ text, c.isDigit = true ∨ c ∈ ['.', 'e', 'E', '+', '-'] := by
  obtain ⟨whole, fraction, exponent, rfl, hwhole, hfraction, hexponent⟩ := h
  intro c hc
  rcases List.mem_append.mp hc with hc | hc
  · exact Or.inl (hwhole.2 c hc)
  rcases List.mem_append.mp hc with hc | hc
  · rcases hfraction with rfl | ⟨digits, rfl, hdigits⟩
    · cases hc
    · rcases List.mem_cons.mp hc with rfl | hc
      · exact Or.inr (by decide)
      · exact Or.inl (hdigits.2 c hc)
  · rcases hexponent with rfl | ⟨mark, sign, digits, rfl, hmark, hsign, hdigits⟩
    · cases hc
    · rcases List.mem_cons.mp hc with rfl | hc
      · exact Or.inr (by rcases hmark with rfl | rfl <;> decide)
      rcases List.mem_append.mp hc with hc | hc
      · refine Or.inr ?_
        rcases hsign with rfl | rfl | rfl
        · cases hc
        · rw [List.mem_singleton.mp hc]
          decide
        · rw [List.mem_singleton.mp hc]
          decide
      · exact Or.inl (hdigits.2 c hc)

theorem IsNumber.newline_not_mem {text : List Char} (h : IsNumber text) : '\n' ∉ text := by
  intro hmem
  exact absurd (h.mem_cases _ hmem) (by decide)

theorem IsString.newline_not_mem {text : List Char} (h : IsString text) : '\n' ∉ text := by
  obtain ⟨body, rfl, hbody⟩ := h
  have hmem : '\n' ∉ body := fun hmem => (hbody _ hmem).2 rfl
  simp [hmem]

theorem IsWord.newline_not_mem {text : List Char} (h : IsWord text) : '\n' ∉ text := by
  obtain ⟨c, rest, rfl, hc, hrest⟩ := h
  have hstart : isWordStart '\n' = false := by decide +kernel
  have hpart : isWordPart '\n' = false := by decide +kernel
  intro hmem
  rcases List.mem_cons.mp hmem with rfl | hmem
  · rw [hstart] at hc
    cases hc
  · have hnewline := hrest _ hmem
    rw [hpart] at hnewline
    cases hnewline

/-- **No lexeme holds a newline.** -/
theorem IsLexeme.newline_not_mem {kind : Kind} {text : List Char} (h : IsLexeme kind text) :
    '\n' ∉ text := by
  have hspelled : ∀ kind ∈ Kind.all, ∀ spelling ∈ kind.spelling?, '\n' ∉ spelling := by decide
  unfold IsLexeme at h
  split at h
  · exact h.1.newline_not_mem
  · exact IsNumber.newline_not_mem h
  · exact IsString.newline_not_mem h
  · exact hspelled _ (Kind.mem_all _) text h

end CalcFrontEnd.Lexis
