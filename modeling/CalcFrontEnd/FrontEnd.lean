/-
  THE FRONT END — from source text to a verdict, with or without a token stream in between.

  `scanToStream` and `recognizeStream` are the two halves of the way over a token stream, whose errors
  name lines of the stream; `check` goes straight through, and its errors name lines of the source.
-/
import CalcFrontEnd.Grammar.Outcome
import CalcFrontEnd.Lexis.Scanner
import CalcFrontEnd.TokenStream

namespace CalcFrontEnd

/-- The token stream of a source text. -/
def scanToStream (source : String) : String := TokenStream.write (Scanner.scan source)

/-- Loads and recognizes a token stream; one that cannot be loaded fails with the loader's error. -/
def recognizeStream (text : String) : Outcome :=
  match TokenStream.load text with
  | .ok tokens => Outcome.ofTokens tokens
  | .error error => Outcome.unloadable error

/-- Scans and recognizes a source text: the lexical errors, and the outcome on the tokens. -/
def check (source : String) : List LexicalError × Outcome :=
  let parts := Item.separate (Scanner.scan source)
  (parts.2, Outcome.ofTokens parts.1)

end CalcFrontEnd
