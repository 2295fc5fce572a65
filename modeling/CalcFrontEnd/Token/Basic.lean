/-
  TOKENS — a kind, the text it was read from, and a line number.

  Nothing ties the lexeme to the kind: the scanner takes care of that for the tokens it makes, while a
  token list from elsewhere may hold anything.  `render` is the line of a token stream: the kind's
  name, filled up with spaces to seventeen columns, and the lexeme.
-/
import CalcFrontEnd.Token.Kind

namespace CalcFrontEnd

/-- A token of a source text or a token stream. -/
structure Token where
  kind : Kind
  lexeme : String
  line : Nat
deriving DecidableEq, Repr, Inhabited

namespace Token

/-- The token that stands for the end of the input. -/
def endOfFile (line : Nat) : Token := ⟨.endOfFile, "", line⟩

/-- Whether the token is of one of the given kinds. -/
def isOneOf (token : Token) (kinds : List Kind) : Bool := kinds.contains token.kind

/-- The column at which the lexeme starts in a token stream. -/
def lexemeColumn : Nat := 17

/-- The text filled up with spaces on the right to the width of the kind column. -/
def fillColumn (text : String) : String :=
  text ++ String.ofList (List.replicate (lexemeColumn - text.length) ' ')

/-- The line of a token stream that holds the token. -/
def render (token : Token) : String := fillColumn token.kind.name ++ token.lexeme

end Token

end CalcFrontEnd
