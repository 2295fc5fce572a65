/-
  TRIVIA — what may stand between two tokens: blanks and comments.

  1. **Rule** — a comment starts at `//` and runs up to the end of its line or of the text.  The newline
     that ends it is a blank of its own.

  2. **Program** — `splitTrivia` cuts the trivia off the front of a text.  One structural pass with one
     bit of state: whether it stands in a comment.

  3. **Facts** — nothing is lost (`splitTrivia_append`), and what is left does not start with a blank
     (`isBlank_head_splitTrivia`).
-/
import CalcFrontEnd.Text.Blank

namespace CalcFrontEnd.Lexis

open Text

/-- The trivia at the front of a text, and the text behind it.  With `inComment` the text starts inside
    a comment. -/
def splitTrivia (inComment : Bool) : List Char → List Char × List Char
  | [] => ([], [])
  | c :: text =>
    if inComment then
      let (gap, rest) := splitTrivia (c != '\n') text
      (c :: gap, rest)
    else if isBlank c then
      let (gap, rest) := splitTrivia false text
      (c :: gap, rest)
    else if c = '/' ∧ text.head? = some '/' then
      let (gap, rest) := splitTrivia true text
      (c :: gap, rest)
    else ([], c :: text)

/-! ## Small facts -/

/-- Trivia and rest make up the text. -/
theorem splitTrivia_append (inComment : Bool) (text : List Char) :
    (splitTrivia inComment text).1 ++ (splitTrivia inComment text).2 = text := by
  induction text generalizing inComment with
  | nil => rfl
  | cons c text ih =>
    unfold splitTrivia
    split
    · simp [ih]
    · split
      · simp [ih]
      · split <;> simp [ih]

/-- The rest does not start with a blank. -/
theorem isBlank_head_splitTrivia (inComment : Bool) (text : List Char) (c : Char)
    (h : (splitTrivia inComment text).2.head? = some c) : isBlank c = false := by
  induction text generalizing inComment with
  | nil => simp [splitTrivia] at h
  | cons d text ih =>
    unfold splitTrivia at h
    split at h
    · exact ih _ h
    · split at h
      · exact ih _ h
      · split at h
        · exact ih _ h
        · simp_all

/-- A comment takes the rest of its line, and the trivia go on behind that. -/
theorem splitTrivia_true (text : List Char) :
    splitTrivia true text =
      (text.takeWhile (· != '\n') ++ (splitTrivia false (text.dropWhile (· != '\n'))).1,
        (splitTrivia false (text.dropWhile (· != '\n'))).2) := by
  induction text with
  | nil => rfl
  | cons c text ih =>
    by_cases hc : c = '\n'
    · subst hc
      have hblank : isBlank '\n' = true := by decide +kernel
      simp [splitTrivia, hblank]
    · have hcomment : (c != '\n') = true := by simp [hc]
      simp [splitTrivia, hcomment, ih]

/-- What was split off and what was left make up the text. -/
theorem append_of_splitTrivia {inComment : Bool} {text gap rest : List Char}
    (h : splitTrivia inComment text = (gap, rest)) : gap ++ rest = text := by
  have happ := splitTrivia_append inComment text
  rw [h] at happ
  exact happ

/-- The character behind the trivia is no blank. -/
theorem isBlank_of_splitTrivia {inComment : Bool} {text gap behind : List Char} {c : Char}
    (h : splitTrivia inComment text = (gap, c :: behind)) : isBlank c = false :=
  isBlank_head_splitTrivia inComment text c (by rw [h]; rfl)

end CalcFrontEnd.Lexis
