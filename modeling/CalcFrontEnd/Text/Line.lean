/-
  LINES OF A TEXT — where one ends and how a number names one.

  1. **Rule** — a line ends at `'\n'`, and one `'\r'` right before that belongs to the line ending.  What
     stands after the last `'\n'` is a line only if it is not empty.  A `'\r'` anywhere else, the very
     end of the text included, is an ordinary character.

  2. **Program** — `lines`, one structural pass; `lineAt? text n`, the line with the 1-based number `n`.
-/

namespace CalcFrontEnd.Text

/-- The lines of a text, without their endings. -/
def lines : List Char → List (List Char)
  | [] => []
  | '\n' :: text => [] :: lines text
  | '\r' :: '\n' :: text => [] :: lines text
  | c :: text =>
    match lines text with
    | [] => [[c]]
    | line :: others => (c :: line) :: others

/-- The line that has the number `n`, counted from one. -/
def lineAt? (text : List Char) : Nat → Option (List Char)
  | 0 => none
  | n + 1 => (lines text)[n]?

end CalcFrontEnd.Text
