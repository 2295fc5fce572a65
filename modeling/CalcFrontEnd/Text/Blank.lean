/-
  BLANK CHARACTERS — the property White_Space of the Unicode Standard, and what is cut at it.

  1. **Data** — a text is a `List Char`; `isBlank` is the one notion of white space everywhere.

  2. **Program** — `trimEnd` and `trim` take blanks off the ends of a text, `words` splits a text at
     its blanks.  `words` is a single structural pass: a blank is dropped, a character that is followed
     by another non-blank joins the word in front of which it stands, any other starts a word of its
     own.
-/
import CalcFrontEnd.Text.Range

namespace CalcFrontEnd.Text

/-- The code points with the White_Space property. -/
def blankRanges : List Range := [
  ⟨0x09, 0x0D⟩, ⟨0x20, 0x20⟩, ⟨0x85, 0x85⟩, ⟨0xA0, 0xA0⟩, ⟨0x1680, 0x1680⟩, ⟨0x2000, 0x200A⟩,
  ⟨0x2028, 0x2029⟩, ⟨0x202F, 0x202F⟩, ⟨0x205F, 0x205F⟩, ⟨0x3000, 0x3000⟩]

/-- Whether `c` is white space. -/
def isBlank (c : Char) : Bool := covers blankRanges c.toNat

/-- A blank lies in one of the ranges. -/
theorem isBlank_iff {c : Char} :
    isBlank c = true ↔ ∃ r ∈ blankRanges, r.first ≤ c.toNat ∧ c.toNat ≤ r.last :=
  covers_iff (by decide +kernel)

/-! ## Trimming -/

/-- The text without the blanks at its end. -/
def trimEnd (text : List Char) : List Char := (text.reverse.dropWhile isBlank).reverse

/-- The text without the blanks at both ends. -/
def trim (text : List Char) : List Char := trimEnd (text.dropWhile isBlank)

/-! ## Words -/

/-- The maximal runs of non-blank characters, in order. -/
def words : List Char → List (List Char)
  | [] => []
  | c :: text =>
    if isBlank c then words text
    else if text.head?.all isBlank then [c] :: words text
    else match words text with
      | [] => [[c]]
      | word :: others => (c :: word) :: others

end CalcFrontEnd.Text
