/-
  CUTS — one token, or one faulty span, off the front of a text.

  1. **Data** — a `Cut` says what was read, which characters it took and what is left.

  2. **Program** — `cut c text` reads at the first character `c`:
     - a quote opens a string literal, which ends at the next quote of the same line;
     - a letter or underscore opens a word, which goes on through letters, numerals and underscores;
     - a digit opens a number: digits, a fraction, an exponent;
     - otherwise the operators are tried in order.

  3. **Recovery** — what a faulty span takes is fixed case by case: an unclosed string runs to the end of
     its line and leaves the newline; a point without a digit behind it takes one more character; an
     exponent without digits takes its sign, and one more character if that is alphabetic; a lone
     point takes itself; anything else takes two characters.

  4. **Facts** — a cut loses nothing (`cut_append`) and always takes something (`cut_span_ne_nil`).
-/
import CalcFrontEnd.Lexis.Item
import CalcFrontEnd.Text.Alphabetic
import CalcFrontEnd.Text.Numeral

namespace CalcFrontEnd.Lexis

open Text

/-- What a span of source text is. -/
inductive Reading where
  | token (kind : Kind)
  | fault (fault : LexicalFault)
deriving DecidableEq, Repr

/-- What was read off the front of a text: its reading, its characters, and the text behind it. -/
structure Cut where
  reading : Reading
  span : List Char
  rest : List Char
deriving DecidableEq, Repr

/-! ## String literals -/

/-- Whether `c` goes on with a string literal. -/
def isStringPart (c : Char) : Bool := c != '"' && c != '\n'

/-- The string literal whose opening quote stands in front of `text`. -/
def cutString (text : List Char) : Cut :=
  let body := text.takeWhile isStringPart
  match text.dropWhile isStringPart with
  | [] => ⟨.fault .illegalCharacter, '"' :: body, []⟩
  | c :: rest =>
    if c = '"' then ⟨.token .string, '"' :: (body ++ [c]), rest⟩
    else ⟨.fault .unterminatedString, '"' :: body, c :: rest⟩

/-! ## Words -/

/-- Whether `c` starts a word. -/
def isWordStart (c : Char) : Bool := isLetter c || c == '_'

/-- Whether `c` goes on with a word. -/
def isWordPart (c : Char) : Bool := isLetter c || isNumeral c || c == '_'

/-- The word that starts with `c`: an identifier or a reserved word. -/
def cutWord (c : Char) (text : List Char) : Cut :=
  let word := c :: text.takeWhile isWordPart
  ⟨.token (Kind.ofWord word), word, text.dropWhile isWordPart⟩

/-! ## Numbers -/

/-- The sign at the front of a text, if there is one. -/
def signOf : List Char → List Char
  | [] => []
  | c :: _ => if c = '+' ∨ c = '-' then [c] else []

/-- The number whose digits and fraction are `mantissa`, with the exponent that `text` may start with. -/
def cutExponent (mantissa text : List Char) : Cut :=
  match text with
  | [] => ⟨.token .number, mantissa, []⟩
  | mark :: afterMark =>
    if mark = 'e' ∨ mark = 'E' then
      let sign := signOf afterMark
      let front := mantissa ++ mark :: sign
      match afterMark.drop sign.length with
      | [] => ⟨.fault .invalidNumber, front, []⟩
      | c :: rest =>
        if c.isDigit then
          ⟨.token .number, front ++ c :: rest.takeWhile Char.isDigit, rest.dropWhile Char.isDigit⟩
        else if isAlphabetic c then ⟨.fault .invalidNumber, front ++ [c], rest⟩
        else ⟨.fault .invalidNumber, front, c :: rest⟩
    else ⟨.token .number, mantissa, mark :: afterMark⟩

/-- The number whose digits before the point are `whole`, with the fraction and the exponent that
    `text` may start with. -/
def cutFraction (whole text : List Char) : Cut :=
  match text with
  | '.' :: afterPoint =>
    match afterPoint with
    | [] => ⟨.fault .invalidNumber, whole ++ ['.'], []⟩
    | c :: rest =>
      if c.isDigit then
        cutExponent (whole ++ '.' :: c :: rest.takeWhile Char.isDigit) (rest.dropWhile Char.isDigit)
      else ⟨.fault .invalidNumber, whole ++ ['.', c], rest⟩
  | _ => cutExponent whole text

/-- The number that starts with the digit `c`. -/
def cutNumber (c : Char) (text : List Char) : Cut :=
  cutFraction (c :: text.takeWhile Char.isDigit) (text.dropWhile Char.isDigit)

/-! ## Operators and everything else -/

/-- How many characters are given up where no token starts. -/
def illegalWidth : Nat := 2

/-- The operator at the front of a text, or the characters given up. -/
def cutOperator (text : List Char) : Cut :=
  match Kind.operatorAt? text with
  | some (kind, spelling) => ⟨.token kind, spelling, text.drop spelling.length⟩
  | none => ⟨.fault .illegalCharacter, text.take illegalWidth, text.drop illegalWidth⟩

/-- The token or faulty span that starts with `c`, which is neither blank nor the start of a comment. -/
def cut (c : Char) (text : List Char) : Cut :=
  if c = '"' then cutString text
  else if isWordStart c then cutWord c text
  else if c.isDigit then cutNumber c text
  else if c = '.' then ⟨.fault .illegalCharacter, [c], text⟩
  else cutOperator (c :: text)

/-! ## From a cut to an item -/

/-- The text that an error carries: an illegal span as it is, any other without the blanks at its end. -/
def carriedText (fault : LexicalFault) (span : List Char) : List Char :=
  match fault with
  | .illegalCharacter => span
  | .unterminatedString | .invalidNumber => trimEnd span

/-- The item that a cut reports on a line. -/
def Cut.item (cut : Cut) (line : Nat) : Item :=
  match cut.reading with
  | .token kind => .token ⟨kind, String.ofList cut.span, line⟩
  | .fault fault => .error ⟨fault, String.ofList (carriedText fault cut.span), line⟩

/-! ## A cut loses nothing -/

theorem cutString_append (text : List Char) :
    (cutString text).span ++ (cutString text).rest = '"' :: text := by
  have h := List.takeWhile_append_dropWhile (p := isStringPart) (l := text)
  unfold cutString
  split
  · rename_i heq
    rw [heq] at h
    simpa using h
  · rename_i c rest heq
    rw [heq] at h
    split <;> simp [h]

theorem cutWord_append (c : Char) (text : List Char) :
    (cutWord c text).span ++ (cutWord c text).rest = c :: text := by
  simp [cutWord, List.takeWhile_append_dropWhile]

theorem signOf_append_drop (text : List Char) :
    signOf text ++ text.drop (signOf text).length = text := by
  unfold signOf
  split
  · rfl
  · split <;> simp

theorem cutExponent_append (mantissa text : List Char) :
    (cutExponent mantissa text).span ++ (cutExponent mantissa text).rest = mantissa ++ text := by
  unfold cutExponent
  split
  · rfl
  · rename_i mark afterMark
    split
    · have h := signOf_append_drop afterMark
      simp only
      split
      · rename_i heq
        rw [heq] at h
        simpa using h
      · rename_i c rest heq
        rw [heq] at h
        have hd := List.takeWhile_append_dropWhile (p := Char.isDigit) (l := rest)
        split
        · simp [hd, h]
        · split <;> simp [h]
    · rfl

theorem cutFraction_append (whole text : List Char) :
    (cutFraction whole text).span ++ (cutFraction whole text).rest = whole ++ text := by
  unfold cutFraction
  split
  · rename_i afterPoint
    split
    · simp
    · rename_i c rest
      split
      · simp [cutExponent_append, List.takeWhile_append_dropWhile]
      · simp
  · exact cutExponent_append whole text

theorem operatorAt?_append {text : List Char} {kind : Kind} {spelling : List Char}
    (h : Kind.operatorAt? text = some (kind, spelling)) :
    spelling ++ text.drop spelling.length = text := by
  obtain ⟨k, _, hk⟩ := List.exists_of_findSome?_eq_some h
  split at hk
  · split at hk
    · rename_i hp
      cases hk
      obtain ⟨rest, rfl⟩ := List.isPrefixOf_iff_prefix.mp hp
      simp
    · simp at hk
  · simp at hk

theorem cutOperator_append (text : List Char) :
    (cutOperator text).span ++ (cutOperator text).rest = text := by
  unfold cutOperator
  split
  · rename_i h
    exact operatorAt?_append h
  · exact List.take_append_drop _ _

/-- The span of a cut and the rest behind it make up the text. -/
theorem cut_append (c : Char) (text : List Char) :
    (cut c text).span ++ (cut c text).rest = c :: text := by
  unfold cut
  split
  · rename_i h
    rw [cutString_append, h]
  · split
    · exact cutWord_append c text
    · split
      · simp [cutNumber, cutFraction_append, List.takeWhile_append_dropWhile]
      · split
        · rfl
        · exact cutOperator_append _

/-! ## A cut takes something -/

theorem operatorAt?_ne_nil {text : List Char} {kind : Kind} {spelling : List Char}
    (h : Kind.operatorAt? text = some (kind, spelling)) : spelling ≠ [] := by
  obtain ⟨k, _, hk⟩ := List.exists_of_findSome?_eq_some h
  cases k <;> simp [Kind.spelling?] at hk <;> simp [← hk.2.2]

theorem cutExponent_span_ne_nil {mantissa : List Char} (text : List Char) (h : mantissa ≠ []) :
    (cutExponent mantissa text).span ≠ [] := by
  unfold cutExponent
  split
  · exact h
  · split
    · simp only
      split
      · simp
      · split
        · simp
        · split <;> simp
    · exact h

theorem cutFraction_span_ne_nil {whole : List Char} (text : List Char) (h : whole ≠ []) :
    (cutFraction whole text).span ≠ [] := by
  unfold cutFraction
  split
  · split
    · simp
    · split
      · exact cutExponent_span_ne_nil _ (by simp)
      · simp
  · exact cutExponent_span_ne_nil _ h

/-- A cut takes at least one character. -/
theorem cut_span_ne_nil (c : Char) (text : List Char) : (cut c text).span ≠ [] := by
  unfold cut
  split
  · unfold cutString
    split
    · simp
    · split <;> simp
  · split
    · simp [cutWord]
    · split
      · exact cutFraction_span_ne_nil _ (by simp)
      · split
        · simp
        · unfold cutOperator
          split
          · rename_i h
            exact operatorAt?_ne_nil h
          · simp [illegalWidth]

/-- What is left behind a cut is no longer than the text behind its first character. -/
theorem length_rest_cut (c : Char) (text : List Char) : (cut c text).rest.length ≤ text.length := by
  have happ := congrArg List.length (cut_append c text)
  have hpos := List.length_pos_iff.mpr (cut_span_ne_nil c text)
  simp at happ
  omega

end CalcFrontEnd.Lexis
