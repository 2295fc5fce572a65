/-
  THE SCANNER — a source text read item by item.

  1. **Data** — a `Scanner` holds the text still to be read, the line it is on, and whether the scan has
     been ended.  Reading on after the end is allowed.

  2. **Program** — `next` skips trivia and cuts off one item; at the end of the text it gives the end
     token, as often as it is asked.  `next?` gives every item once: after the end token that it gave
     itself there is no further one.  `collect` runs `next?` to the end, and `scan` does so on a whole
     text.

  3. **Lines** — only the newlines of the trivia count.  A newline that a faulty span takes, or that
     `skip` steps over, does not move the line number.

  4. **Bytes** — the text still to be read is kept as such.  A `ByteScanner` keeps the whole text and a
     byte offset in its place, and takes slices at it, which may fail; that it does the same and none
     of them fails is `ByteScanner.scan_eq`.

  5. **Crux** — `next` shortens the text unless it gives the end token (`next_isEnd_or_shorter`), hence
     `collect` ends.
-/
import CalcFrontEnd.Lexis.Cut
import CalcFrontEnd.Lexis.Trivia

namespace CalcFrontEnd

open Lexis

/-- A scan in progress. -/
structure Scanner where
  /-- The text still to be read. -/
  rest : List Char
  /-- The current line, counted from one. -/
  line : Nat
  /-- Whether the item-by-item reading has given its end token. -/
  finished : Bool
deriving DecidableEq, Repr

namespace Scanner

/-- The scanner in front of a text. -/
def ofText (source : String) : Scanner := ⟨source.toList, 1, false⟩

/-- The text still to be read. -/
def remainder (s : Scanner) : String := String.ofList s.rest

/-- The next character. -/
def peek? (s : Scanner) : Option Char := s.rest.head?

/-- Whether the text is used up. -/
def atEnd (s : Scanner) : Bool := s.rest.isEmpty

/-- The scanner `n` characters further on, or at the end of the text; the line stays as it is. -/
def skip (s : Scanner) (n : Nat) : Scanner := { s with rest := s.rest.drop n }

/-- The next item: a token, an error, or the end token once the text is used up. -/
def next (s : Scanner) : Item × Scanner :=
  let parts := splitTrivia false s.rest
  let line := s.line + parts.1.count '\n'
  match parts.2 with
  | [] => (.token (Token.endOfFile line), { s with rest := [], line })
  | c :: text =>
    let cut := cut c text
    (cut.item line, { s with rest := cut.rest, line })

/-- The next item unless the reading has ended; the end token ends it. -/
def next? (s : Scanner) : Option Item × Scanner :=
  if s.finished then (none, s)
  else (some s.next.1, { s.next.2 with finished := s.next.1.isEnd })

/-! ## Progress -/

/-- The end token is given on an empty rest only, and any other item shortens the text. -/
theorem next_isEnd_or_shorter (s : Scanner) :
    s.next.1.isEnd = true ∨ s.next.2.rest.length < s.rest.length := by
  have happ := congrArg List.length (splitTrivia_append false s.rest)
  simp only [next]
  cases hrest : (splitTrivia false s.rest).2 with
  | nil => exact Or.inl rfl
  | cons c text =>
    simp only [hrest, List.length_append, List.length_cons] at happ
    have := length_rest_cut c text
    exact Or.inr (by simp only; omega)

/-- The items up to the end token, and the scanner behind them. -/
def collect (s : Scanner) : List Item × Scanner :=
  if s.finished then ([], s)
  else if s.next.1.isEnd then ([s.next.1], { s.next.2 with finished := true })
  else
    let (items, last) := s.next.2.collect
    (s.next.1 :: items, last)
termination_by s.rest.length
decreasing_by
  rename_i h
  exact (next_isEnd_or_shorter s).resolve_left h

/-- All items of a text: tokens and errors in source order, the end token last. -/
def scan (source : String) : List Item := (ofText source).collect.1

end Scanner

end CalcFrontEnd
