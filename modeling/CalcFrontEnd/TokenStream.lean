/-
  TOKEN STREAMS — a scan as a text, one entry a line.

  1. **Format** — a token is a line with its kind's name in a column of its own and its lexeme behind it.
     An error is two lines: its message, and a marker line that holds the marker's name alone.  Lines
     are joined by newlines, without one at the end.

  2. **Writing** — `write` renders the items in order.

  3. **Loading** — `load` reads the tokens back and leaves the errors out.  Each line is split into words.
     The lines are gone through once, with the entries read so far on a stack.  A line without words
     says nothing; a marker line says that the line right above it was a message, and takes its entry
     back; any other line is an entry: a kind's name and the words of the lexeme, which are joined by
     single spaces.  A token's line is its line in the stream.  The first entry that names no kind
     makes the stream unreadable, but only after all lines have been gone through.
-/
import CalcFrontEnd.Grammar.Fault
import CalcFrontEnd.Lexis.Item
import CalcFrontEnd.Text.Line

namespace CalcFrontEnd.TokenStream

open Text

/-! ## Writing -/

/-- The lines of a token stream that hold an item. -/
def itemLines : Item → List String
  | .token token => [token.render]
  | .error error => [error.message, Kind.error.name]

/-- The token stream of a scan. -/
def write (items : List Item) : String := "\n".intercalate (items.flatMap itemLines)

/-! ## Loading -/

/-- The words of a marker line. -/
def marker : List (List Char) := [Kind.error.name.toList]

/-- A line of a token stream that holds a token: its number, its first word and the other words. -/
structure Entry where
  line : Nat
  name : List Char
  lexeme : List (List Char)
deriving DecidableEq, Repr

/-- The entries read so far, the latest first, behind one more line, which has the number `line`. -/
def readLine (read : List Entry) (line : Nat) : List (List Char) → List Entry
  | [] => read
  | name :: lexeme =>
    if name :: lexeme ≠ marker then ⟨line, name, lexeme⟩ :: read
    -- the message that the marker is about stands right above it, or there is none
    else if read.head?.any fun above => above.line + 1 = line then read.tail
    else read

/-- The entries behind all lines, each given by its words, in the order of the stream; the first line
    has the number `line`. -/
def readLines (read : List Entry) (line : Nat) : List (List (List Char)) → List Entry
  | [] => read.reverse
  | words :: others => readLines (readLine read line words) (line + 1) others

/-- The entries among the lines of a stream. -/
def entries (line : Nat) (texts : List (List (List Char))) : List Entry := readLines [] line texts

/-- The token that an entry holds. -/
def Entry.token (entry : Entry) : Except ParseError Token :=
  let name := String.ofList entry.name
  match Kind.ofName? name with
  | none => .error ⟨.unknownTokenKind name, entry.line⟩
  | some kind => .ok ⟨kind, " ".intercalate (entry.lexeme.map String.ofList), entry.line⟩

/-- The tokens of a token stream. -/
def load (text : String) : Except ParseError (List Token) :=
  (entries 1 ((lines text.toList).map words)).mapM Entry.token

end CalcFrontEnd.TokenStream
